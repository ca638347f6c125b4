import MarketReplay.Proofs.Double.Rounding

/-!
# Arithmetic without overflow

A double stands for a rational number (`Double.value`), and a sum, a difference or a quotient of
finite doubles is the exact one, rounded (`Double.rounds_add`, `Double.rounds_sub`,
`Double.rounds_div`). So are integers.

**Rounding does not lead out of bounds** (`Double.Rounds.le`): a number that is no larger than a
double, or larger by less than half a unit, is rounded to a finite double that is no larger. This is
how an operation is seen not to overflow; the bounds come from the numbers, since finite doubles
compare as the numbers they stand for (`Double.le_iff_value_le`).
-/

set_option autoImplicit false

namespace MarketReplay.Double

open Float.Model Float.Model.UnpackedFloat

/-! ## Operations on unpacked doubles

Each operation brings its operands to one exponent, works with integers, and rounds. What it rounds
is the exact result, and that is all there is to show. -/

section operations

variable {a b : UnpackedFloat}

theorem unpackedValue_decreaseExponent (s : Sign) (m : ℕ) (hm : 0 < m) {e t : ℤ} (h : t ≤ e) :
    ((s.apply (decreaseExponent m e t).1 : ℤ) : ℚ) * 2 ^ t =
      unpackedValue (.finite s m e hm) := by
  obtain ⟨k, hdecrease, hk⟩ := decreaseExponent_eq m e t
  rw [min_eq_right h] at hk
  have hmantissa := mul_two_pow_eq m hk
  rw [hdecrease, unpackedValue]
  cases s
  · simp only [Sign.apply, Int.cast_neg, Int.cast_natCast, neg_mul, hmantissa]
  · exact hmantissa

theorem isRounding_add (ha : IsCanonical a) (hb : IsCanonical b) :
    IsRounding |unpackedValue a + unpackedValue b|
      (UnpackedFloat.add Format.binary64 a b) := by
  have hzero (s : Sign) : unpackedValue (.zero s) = 0 := rfl
  rcases ha with s | @⟨s, m, e, hm, h⟩ <;> rcases hb with s' | @⟨s', m', e', hm', h'⟩
  case zero.zero =>
    rw [hzero, hzero, add_zero, abs_zero]
    cases s <;> cases s' <;> exact isRounding_zero _
  case zero.finite =>
    rw [hzero, zero_add]
    exact isRounding_of_isCanonical (.finite s' hm' h')
  case finite.zero =>
    rw [hzero, add_zero]
    exact isRounding_of_isCanonical (.finite s hm h)
  case finite.finite =>
    -- two numbers are added on the lower of their exponents, where the sum is exact; it is rounded
    -- once, afterwards
    have hnormal := isRounding_normalize
      (s.apply (decreaseExponent m e (min e e')).1 + s'.apply (decreaseExponent m' e' (min e e')).1)
      (min e e')
    rw [Int.cast_add, add_mul, unpackedValue_decreaseExponent s m hm (min_le_left ..),
      unpackedValue_decreaseExponent s' m' hm' (min_le_right ..)] at hnormal
    exact hnormal

theorem unpackedValue_neg (a : UnpackedFloat) : unpackedValue a.neg = -unpackedValue a := by
  rcases a with _ | _ | s | ⟨s, m, e, hm⟩
  · exact neg_zero.symm
  · exact neg_zero.symm
  · exact neg_zero.symm
  · cases s
    · show ((m : ℤ) : ℚ) * 2 ^ e = -(((-m : ℤ) : ℚ) * 2 ^ e)
      push_cast
      ring
    · show ((-m : ℤ) : ℚ) * 2 ^ e = -(((m : ℤ) : ℚ) * 2 ^ e)
      push_cast
      ring

theorem IsCanonical.neg (ha : IsCanonical a) : IsCanonical a.neg := by
  rcases ha with s | ⟨s, hm, h⟩
  · exact .zero _
  · exact .finite _ hm h

theorem unpacked_sub_eq (spec : Format) (a b : UnpackedFloat) :
    UnpackedFloat.sub spec a b = UnpackedFloat.add spec a b.neg := by
  rcases a with s | _ | s | ⟨s, m, e, hm⟩ <;> rcases b with s' | _ | s' | ⟨s', m', e', hm'⟩ <;>
    try rfl
  -- two finite numbers are left
  cases s'
  · exact congrArg (UnpackedFloat.normalize spec · (min e e') .positive) (sub_neg_eq_add _ _)
  · rfl

theorem isRounding_sub (ha : IsCanonical a) (hb : IsCanonical b) :
    IsRounding |unpackedValue a - unpackedValue b|
      (UnpackedFloat.sub Format.binary64 a b) := by
  rw [unpacked_sub_eq, sub_eq_add_neg, ← unpackedValue_neg]
  exact isRounding_add ha hb.neg

/-- What is left of a division says where the quotient lies: on a whole number, below a half, on it,
or above it. -/
theorem represents_div (n : ℕ) {d : ℕ} (hd : 0 < d) :
    Represents (ExtendedMantissa.ofMantissaAndAccuracy (n / d) (accuracyOfFraction (n % d) d))
      (n / d) := by
  have hrational : (0 : ℚ) < d := by exact_mod_cast hd
  have hquotient : (n : ℚ) / d = (n / d : ℕ) + (n % d : ℕ) / d := by
    rw [div_eq_iff hrational.ne', add_mul, div_mul_cancel₀ _ hrational.ne']
    exact_mod_cast (Nat.div_add_mod' n d).symm
  have hless : ((n % d : ℕ) : ℚ) / d < 1 :=
    (div_lt_one hrational).mpr (by exact_mod_cast Nat.mod_lt n hd)
  rw [hquotient]
  unfold accuracyOfFraction
  generalize n % d = rest at hless ⊢
  split
  · rename_i hzero
    rw [hzero, Nat.cast_zero, zero_div, add_zero]
    rfl
  · rename_i hne
    have hpos : (0 : ℚ) < rest / d := div_pos (by exact_mod_cast Nat.pos_of_ne_zero hne) hrational
    -- the accuracy only tells on which side of a half the rest of the division lies
    rcases lt_trichotomy (2 * rest) d with hlt | heq | hgt
    · rw [Nat.compare_eq_lt.mpr hlt]
      have hhalf : (rest : ℚ) / d < 1 / 2 := by
        rw [div_lt_div_iff₀ hrational two_pos]
        exact_mod_cast (by omega : rest * 2 < 1 * d)
      constructor <;> dsimp only [ExtendedMantissa.ofMantissaAndAccuracy] <;> linarith
    · rw [Nat.compare_eq_eq.mpr heq]
      have hhalf : (rest : ℚ) / d = 1 / 2 := by
        rw [div_eq_div_iff hrational.ne' two_ne_zero]
        exact_mod_cast (by omega : rest * 2 = 1 * d)
      exact congrArg _ hhalf
    · rw [Nat.compare_eq_gt.mpr hgt]
      have hhalf : 1 / 2 < (rest : ℚ) / d := by
        rw [div_lt_div_iff₀ two_pos hrational]
        exact_mod_cast (by omega : 1 * d < rest * 2)
      constructor <;> dsimp only [ExtendedMantissa.ofMantissaAndAccuracy] <;> linarith

/-- A quotient is worked out with 53 bits at least, unless it is too small for that. Rounding it
once is then rounding the quotient itself. -/
theorem le_target_div {m m' k : ℕ} {t d : ℤ} (hm : 0 < m) (hm' : 0 < m') (hk : d - k = t)
    (ht : t ≤ max (m.log2 - m'.log2 + d - 53) (-1074)) :
    t ≤ Format.binary64.targetExponent (totalExponent (m * 2 ^ k / m') t) := by
  rw [targetExponent_eq]
  by_cases hleast : t ≤ -1074
  · omega
  · have hplaces : 52 + (m'.log2 + 1) ≤ m.log2 + k := by omega
    -- the dividend was shifted until the quotient has its 53 places, so that nothing rounds below
    -- them
    have hquotient : 2 ^ 52 ≤ m * 2 ^ k / m' := by
      rw [Nat.le_div_iff_mul_le hm']
      calc 2 ^ 52 * m' ≤ 2 ^ 52 * 2 ^ (m'.log2 + 1) := Nat.mul_le_mul_left _ Nat.lt_log2_self.le
        _ = 2 ^ (52 + (m'.log2 + 1)) := (pow_add 2 52 (m'.log2 + 1)).symm
        _ ≤ 2 ^ (m.log2 + k) := Nat.pow_le_pow_right two_pos hplaces
        _ = 2 ^ m.log2 * 2 ^ k := pow_add 2 m.log2 k
        _ ≤ m * 2 ^ k := Nat.mul_le_mul_right _ (Nat.log2_self_le hm.ne')
    have hlog := (Nat.le_log2 (by omega)).mpr hquotient
    omega

/-- A quotient of finite doubles is the exact one, rounded. The division of mantissas has a
remainder, of which only its size against half of the divisor is kept; rounding needs no more. -/
theorem isRounding_div (ha : IsCanonical a) (hb : IsCanonical b) (hne : unpackedValue b ≠ 0) :
    IsRounding |unpackedValue a / unpackedValue b|
      (UnpackedFloat.div Format.binary64 a b) := by
  rcases hb with s' | @⟨s', m', e', hm', h'⟩
  · exact absurd rfl hne
  rcases ha with s | @⟨s, m, e, hm, h⟩
  case zero =>
    have hzero : unpackedValue (.zero s) = 0 := rfl
    rw [hzero, zero_div, abs_zero]
    exact isRounding_zero _
  case finite =>
    rw [abs_div, abs_unpackedValue_finite, abs_unpackedValue_finite]
    show IsRounding _ (roundWithAccuracy Format.binary64 (s / s')
      (divCore Format.binary64 m e m' e').1 (divCore Format.binary64 m e m' e').2.1
      (divCore Format.binary64 m e m' e').2.2)
    -- how far the dividend is shifted enters by two inequalities alone
    obtain ⟨t, ht, hmin⟩ : ∃ t, t = min (e - e')
      (Format.binary64.targetExponent (totalExponent m e - totalExponent m' e')) ∧
      t ≤ max (m.log2 - m'.log2 + (e - e') - 53) (-1074) := by
      refine ⟨_, rfl, (min_le_right ..).trans_eq ?_⟩
      show max (((m.log2 : ℤ) + 1 + e) - (m'.log2 + 1 + e') - 53) (-1074) = _
      congr 1
      ring
    obtain ⟨k, hk⟩ : ∃ k : ℕ, e - e' - k = t := ⟨(e - e' - t).toNat, by omega⟩
    have hcore : divCore Format.binary64 m e m' e' =
        (m * 2 ^ k / m', t, accuracyOfFraction (m * 2 ^ k % m') m') := by
      have hshift : (e - e' - t).toNat = k := by omega
      unfold divCore
      simp only [← ht, hshift, Nat.shiftLeft_eq]
    rw [hcore]
    -- the shift leaves the quotient as it is
    have hquotient : (m : ℚ) * 2 ^ e / (m' * 2 ^ e') = ((m * 2 ^ k : ℕ) : ℚ) / m' * 2 ^ t := by
      rw [div_mul_eq_mul_div, mul_two_pow_eq m hk, zpow_sub₀ two_ne_zero]
      have : (m' : ℚ) ≠ 0 := by exact_mod_cast hm'.ne'
      field_simp
    rw [hquotient]
    exact isRounding_roundWithAccuracy _ (represents_div _ hm') (le_target_div hm hm' hk hmin)

end operations

/-! ## Packing

A rounded number that fits the format comes back from it. One whose exponent is too large would come
back as an infinity. -/

section packing

variable {m m' : ℕ} {e e' : ℤ}

theorem unpack_pack_subnormal (sign : Sign) (hpos : 0 < m) (hm : m < 2 ^ 52) :
    UnpackedFloat.unpack Format.binary64
        (UnpackedFloat.pack Format.binary64 (.finite sign m (-1074) hpos)) =
      .finite sign m (-1074) hpos := by
  -- below the full mantissa the exponent's field is zero, and the leading bit is not left out
  have hlog : m.log2 + 1 ≠ Format.binary64.mantissaBits := by
    have := (Nat.log2_lt hpos.ne').mpr hm
    show m.log2 + 1 ≠ 53
    omega
  have hmantissa : (BitVec.ofNat 52 m).toNat = m := Nat.mod_eq_of_lt hm
  have hne : BitVec.ofNat 52 m ≠ 0#52 := by
    intro hzero
    have := hmantissa.symm.trans (congrArg BitVec.toNat hzero)
    rw [BitVec.toNat_zero] at this
    omega
  have hsign : Sign.ofBitVec sign.toBitVec = sign := by cases sign <;> rfl
  have hpack : UnpackedFloat.pack Format.binary64 (.finite sign m (-1074) hpos) =
      packComponents Format.binary64 sign 0#11 (BitVec.ofNat 52 m) := by
    simp only [UnpackedFloat.pack, if_neg hlog]
    rw [if_neg (by decide)]
  rw [hpack]
  simp only [UnpackedFloat.unpack, unpackMantissa_packComponents, unpackExponent_packComponents,
    unpackSign_packComponents, hmantissa, hsign]
  rw [if_neg (by decide), if_pos trivial, dif_neg hne]
  rfl

theorem unpack_pack_canonical {u : UnpackedFloat} (hu : IsCanonical u) (hme : Canonical m e)
    (he : e ≤ 971) (hle : |unpackedValue u| ≤ m * 2 ^ e) :
    UnpackedFloat.unpack Format.binary64 (UnpackedFloat.pack Format.binary64 u) = u := by
  rcases hu with s | @⟨s, m', e', hm', hcanonical⟩
  · cases s <;> rfl
  · -- a canonical number above the largest exponent would be above the bound
    have hroom : e' ≤ 971 := by
      by_contra hover
      rw [abs_unpackedValue_finite] at hle
      exact hle.not_gt (hme.mul_lt hcanonical (.inl (by omega)))
    by_cases hfull : 2 ^ 52 ≤ m'
    · have hlog : m'.log2 = 52 := by
        have hlow := (Nat.le_log2 hm'.ne').mpr hfull
        have hhigh := log2_le_of_lt hcanonical.lt
        omega
      exact unpack_pack_normal s hm' hlog hcanonical.least hroom
    · obtain rfl := hcanonical.full.resolve_right hfull
      exact unpack_pack_subnormal s hm' (by omega)

end packing

/-! ## Operations on doubles

The same for doubles as they are, packed. From here on nothing is said about bits. -/

/-- The number a double stands for. An infinity and `NaN` stand for zero, which no lemma makes use
of: each asks for finite doubles. -/
def value (x : Float) : ℚ := unpackedValue x.toModel.unpack

/-- The double is the number, rounded. It may be infinite, if the number is too large; what excludes
this is a bound on the number (`Rounds.le`). -/
def Rounds (q : ℚ) (x : Float) : Prop :=
  ∃ u, x.toModel.unpack = UnpackedFloat.unpack Format.binary64
    (UnpackedFloat.pack Format.binary64 u) ∧ IsRounding |q| u

section doubles

variable {x y : Float} {q : ℚ} {m n : ℕ} {e : ℤ}

/-- A finite double is canonical, and its exponent fits the format. -/
theorem canonical_of_isFinite (hx : Scalar.isFinite x = true) :
    IsCanonical x.toModel.unpack ∧
      ∃ m e, Canonical m e ∧ e ≤ 971 ∧ |value x| = m * 2 ^ e := by
  have hx : x.toModel.unpack.isFinite = true := hx
  -- the bounds come from the fields of the encoding: 52 bits of mantissa, 11 of exponent
  have hunpack : x.toModel.unpack =
      UnpackedFloat.unpack Format.binary64 x.toModel.toBits.toBitVec := rfl
  unfold value
  rcases h : x.toModel.unpack with s | _ | s | ⟨s, m, e, hm⟩
  · rw [h] at hx
    cases hx
  · rw [h] at hx
    cases hx
  · refine ⟨.zero s, 0, -1074, ⟨by norm_num, le_rfl, .inl rfl⟩, by norm_num, ?_⟩
    rw [Nat.cast_zero, zero_mul]
    exact abs_zero
  · obtain ⟨hleast, he, hlt, hfull⟩ := bounds_of_unpack (hunpack.symm.trans h)
    have hcanonical : Canonical m e := ⟨by omega, hleast, by omega⟩
    exact ⟨.finite s hm hcanonical, m, e, hcanonical, he, abs_unpackedValue_finite ..⟩

theorem isCanonical_of_isFinite (hx : Scalar.isFinite x = true) :
    IsCanonical x.toModel.unpack := (canonical_of_isFinite hx).1

/-- **Rounding does not lead out of bounds**: a number that exceeds a double by less than half a
unit is rounded to a finite double that is no larger. -/
theorem Rounds.le (h : Rounds q x) (hme : Canonical m e) (he : e ≤ 971)
    (hq : |q| < (m + 1 / 2) * 2 ^ e) : Scalar.isFinite x = true ∧ |value x| ≤ m * 2 ^ e := by
  obtain ⟨u, hx, hu⟩ := h
  have hle := hu.le hme hq
  rw [unpack_pack_canonical hu.1 hme he hle] at hx
  have hfinite : Scalar.isFinite x = u.isFinite := congrArg UnpackedFloat.isFinite hx
  rw [hfinite, value, hx]
  exact ⟨hu.1.isFinite, hle⟩

theorem Rounds.le_two_pow (h : Rounds q x) {k : ℕ} (hk : k ≤ 971)
    (hq : |q| < 2 ^ (k + 52) + 2 ^ k / 2) :
    Scalar.isFinite x = true ∧ |value x| ≤ 2 ^ (k + 52) := by
  have hpower : ((2 ^ 52 : ℕ) : ℚ) * 2 ^ (k : ℤ) = 2 ^ (k + 52) := by
    rw [zpow_natCast]
    push_cast
    ring
  rw [← hpower]
  refine h.le ⟨by norm_num, by omega, .inr le_rfl⟩ (by omega) (hq.trans_eq ?_)
  rw [add_mul, hpower, zpow_natCast]
  ring

/-- A number that is no larger than a double is rounded to a double that is no larger. -/
theorem Rounds.abs_le (h : Rounds q x) (hy : Scalar.isFinite y = true) (hq : |q| ≤ |value y|) :
    Scalar.isFinite x = true ∧ |value x| ≤ |value y| := by
  obtain ⟨-, m, e, hme, he, hvalue⟩ := canonical_of_isFinite hy
  rw [hvalue] at hq ⊢
  refine h.le hme he (hq.trans_lt ?_)
  gcongr
  linarith

theorem rounds_add (hx : Scalar.isFinite x = true) (hy : Scalar.isFinite y = true) :
    Rounds (value x + value y) (x + y) :=
  ⟨_, unpack_add x y, isRounding_add (isCanonical_of_isFinite hx) (isCanonical_of_isFinite hy)⟩

theorem rounds_sub (hx : Scalar.isFinite x = true) (hy : Scalar.isFinite y = true) :
    Rounds (value x - value y) (x - y) :=
  ⟨_, unpack_sub x y, isRounding_sub (isCanonical_of_isFinite hx) (isCanonical_of_isFinite hy)⟩

theorem rounds_div (hx : Scalar.isFinite x = true) (hy : Scalar.isFinite y = true)
    (hne : value y ≠ 0) : Rounds (value x / value y) (x / y) :=
  ⟨_, unpack_div x y,
    isRounding_div (isCanonical_of_isFinite hx) (isCanonical_of_isFinite hy) hne⟩

/-! ### Whole numbers -/

theorem unpackedValue_whole (n : ℕ) (h : n < 2 ^ 53) : unpackedValue (whole n) = n := by
  by_cases hn : n = 0
  · subst hn
    rfl
  · have hlog := log2_le_of_lt h
    rw [whole, dif_neg hn]
    show (((n * 2 ^ (52 - n.log2) : ℕ) : ℤ) : ℚ) * 2 ^ ((n.log2 : ℤ) - 52) = n
    rw [Int.cast_natCast, mul_two_pow_eq (e := 0) n (by omega), zpow_zero, mul_one]

theorem value_ofNat (h : n < 2 ^ 53) : value (Scalar.ofNat n : Float) = n := by
  rw [value, unpack_ofNat h, unpackedValue_whole n h]

theorem isFinite_ofNat (h : n < 2 ^ 53) : Scalar.isFinite (Scalar.ofNat n : Float) = true := by
  show (Scalar.ofNat n : Float).toModel.unpack.isFinite = true
  rw [unpack_ofNat h, whole]
  split <;> rfl

theorem rounds_ofNat (hn : 2 ^ 53 ≤ n) : Rounds n (Scalar.ofNat n : Float) := by
  have hne : n ≠ 0 := by omega
  have hmodel : (Scalar.ofNat n : Float) = Float.ofModel (Float.Model.ofScientific n 0) :=
    dif_neg fun h => by omega
  -- a whole number is read as a decimal without an exponent, 53 places further left than it is
  have hscientific : UnpackedFloat.ofScientific Format.binary64 n 0 =
      roundWithAccuracy Format.binary64 .positive (n * 2 ^ 53) (-53) .exact := by
    have hshift : (n <<< Format.binary64.mantissaBits) * 10 ^ (0 : ℤ).toNat = n * 2 ^ 53 := by
      rw [Nat.shiftLeft_eq]
      exact mul_one _
    unfold UnpackedFloat.ofScientific
    rw [dif_neg hne, if_neg (by decide),
      if_neg (show ¬(0 : ℤ) < -((2 : ℤ) ^ 11 + n.log2) by omega), if_pos le_rfl, ← hshift]
    rfl
  refine ⟨roundWithAccuracy Format.binary64 .positive (n * 2 ^ 53) (-53) .exact, ?_, ?_⟩
  · rw [hmodel, ← hscientific]
    rfl
  · have hround := isRounding_roundWithAccuracy (e := -53) .positive (represents_exact (n * 2 ^ 53))
      (by rw [targetExponent_eq, log2_mul_two_pow hne]; omega)
    rwa [mul_two_pow_eq (e := 0) n (by omega), zpow_zero, mul_one, ← Nat.abs_cast n] at hround

theorem unpack_neg (hx : Scalar.isFinite x = true) :
    (-x).toModel.unpack = x.toModel.unpack.neg := by
  obtain ⟨hcanonical, m, e, hme, he, hvalue⟩ := canonical_of_isFinite hx
  refine unpack_pack_canonical hcanonical.neg hme he ?_
  rw [unpackedValue_neg, abs_neg]
  exact hvalue.le

theorem isFinite_neg (hx : Scalar.isFinite x = true) : Scalar.isFinite (-x) = true := by
  show (-x).toModel.unpack.isFinite = true
  rw [unpack_neg hx]
  exact (isCanonical_of_isFinite hx).neg.isFinite

theorem value_neg (hx : Scalar.isFinite x = true) : value (-x) = -value x := by
  rw [value, unpack_neg hx, unpackedValue_neg, value]

/-- **Integers of 64 bits are finite**, and no larger than the largest of them is. Rounding may
reach the bound, which is a power of two, and cannot pass it. -/
theorem ofInt_within {z : ℤ} (hz : z.natAbs ≤ 2 ^ 63) :
    Scalar.isFinite (Scalar.ofInt z : Float) = true ∧
      |value (Scalar.ofInt z : Float)| ≤ 2 ^ 63 := by
  have hnat (n : ℕ) (hn : n ≤ 2 ^ 63) : Scalar.isFinite (Scalar.ofNat n : Float) = true ∧
      |value (Scalar.ofNat n : Float)| ≤ 2 ^ 63 := by
    have hrational : (n : ℚ) ≤ 2 ^ 63 := by exact_mod_cast hn
    by_cases h : n < 2 ^ 53
    · rw [value_ofNat h, Nat.abs_cast]
      exact ⟨isFinite_ofNat h, hrational⟩
    · refine (rounds_ofNat (not_lt.mp h)).le_two_pow (k := 11) (by norm_num) ?_
      rw [Nat.abs_cast]
      exact hrational.trans_lt (by norm_num)
  -- a negative number is the negative of a natural one, and the bound is the same
  rcases z with n | n
  · exact hnat n hz
  · have hneg : (Scalar.ofInt (Int.negSucc n) : Float) = -Scalar.ofNat (n + 1) := rfl
    obtain ⟨hfinite, hle⟩ := hnat (n + 1) hz
    rw [hneg, value_neg hfinite, abs_neg]
    exact ⟨isFinite_neg hfinite, hle⟩

/-! ### Order -/

theorem unpackedValue_lt {a b : UnpackedFloat} (ha : IsCanonical a) (hb : IsCanonical b)
    (h : ∃ p ∈ unpackedPlace? a, ∃ q ∈ unpackedPlace? b, p < q) :
    unpackedValue a < unpackedValue b := by
  have hpos (m : ℕ) (e : ℤ) (hm : 0 < m) : (0 : ℚ) < m * 2 ^ e := by positivity
  rcases ha with _ | @⟨_ | _, m, e, hm, hme⟩ <;> rcases hb with _ | @⟨_ | _, m', e', hm', hme'⟩ <;>
    simp [unpackedPlace?, unpackedValue, Sign.apply, Prod.Lex.lt_iff] at h ⊢
  case zero.finite.positive => exact hpos m' e' hm'
  case finite.negative.zero => exact hpos m e hm
  case finite.negative.finite.negative => exact hme'.mul_lt hme (h.imp_right (And.imp_left Eq.symm))
  case finite.negative.finite.positive => linarith [hpos m e hm, hpos m' e' hm']
  case finite.positive.finite.positive => exact hme.mul_lt hme' h

theorem unpackedValue_eq {a b : UnpackedFloat} (ha : IsCanonical a) (hb : IsCanonical b)
    (h : unpackedPlace? a = unpackedPlace? b) : unpackedValue a = unpackedValue b := by
  rcases ha with _ | @⟨_ | _, m, e, hm, -⟩ <;> rcases hb with _ | @⟨_ | _, m', e', hm', -⟩ <;>
    simp [unpackedPlace?] at h ⊢
  case zero.zero => rfl
  all_goals
    obtain ⟨rfl, rfl⟩ := h
    rfl

theorem value_lt (hx : Scalar.isFinite x = true) (hy : Scalar.isFinite y = true) (h : x < y) :
    value x < value y :=
  unpackedValue_lt (isCanonical_of_isFinite hx) (isCanonical_of_isFinite hy) (lt_iff.mp h)

/-- **Finite doubles compare as the numbers they stand for.** Their places grow with the numbers,
because mantissas are canonical. -/
theorem le_iff_value_le (hx : Scalar.isFinite x = true) (hy : Scalar.isFinite y = true) :
    x ≤ y ↔ value x ≤ value y := by
  constructor
  · intro h
    obtain ⟨p, hp, q, hq, hpq⟩ := le_iff.mp h
    rcases lt_or_eq_of_le hpq with hlt | rfl
    · exact (value_lt hx hy (lt_iff.mpr ⟨p, hp, q, hq, hlt⟩)).le
    · exact (unpackedValue_eq (isCanonical_of_isFinite hx) (isCanonical_of_isFinite hy)
        (Eq.trans hp (Eq.symm hq))).le
  · intro h
    exact (lt_or_le (isNaN_of_isFinite hy) (isNaN_of_isFinite hx)).resolve_left
      fun hlt => (value_lt hy hx hlt).not_ge h

end doubles

end MarketReplay.Double
