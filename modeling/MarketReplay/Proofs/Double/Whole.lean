import MarketReplay.Proofs.Double.Packing

/-!
# Whole numbers as doubles

A whole number below `2 ^ 53` is a double, and its unpacked form is known: a mantissa of 53 bits
that ends in zeros (`Double.whole`). Rounding such a mantissa does nothing
(`Double.roundWithAccuracy_exact`), and so **sums and differences of whole numbers are exact** as
long as they have no more than 53 bits (`Double.add_whole`, `Double.sub_whole`).

`Double.IsWhole` says of a double which whole number it is. A zero of either sign is the number
zero, and a sum that has started from zero does not tell the two apart (`Double.unpack_add_isWhole`,
`Double.unpack_sub_isWhole`).
-/

set_option autoImplicit false

namespace MarketReplay.Double

open Float.Model Float.Model.UnpackedFloat

/-- A whole number with a mantissa of 53 bits, which is how a double holds it. From `2 ^ 53` on the
exponent would have to be above zero and not every whole number has one. -/
def whole (n : ℕ) : UnpackedFloat :=
  if h : n = 0 then .zero .positive
  else .finite .positive (n * 2 ^ (52 - n.log2)) (n.log2 - 52)
    (Nat.mul_pos (Nat.pos_of_ne_zero h) (Nat.two_pow_pos _))

section rounding

variable {m n k s : ℕ} {e : ℤ}

theorem log2_mul_two_pow (hn : n ≠ 0) (s : ℕ) : (n * 2 ^ s).log2 = n.log2 + s := by
  obtain ⟨hlow, hhigh⟩ := (Nat.log2_eq_iff hn).mp rfl
  refine (Nat.log2_eq_iff (Nat.mul_ne_zero hn (Nat.two_pow_pos s).ne')).mpr ⟨?_, ?_⟩
  · rw [pow_add]
    exact Nat.mul_le_mul_right _ hlow
  · rw [Nat.add_right_comm, pow_add]
    exact Nat.mul_lt_mul_of_pos_right hhigh (Nat.two_pow_pos s)

theorem log2_le_of_lt (hn : n < 2 ^ 53) : n.log2 ≤ 52 := by
  by_cases h : n = 0
  · rw [h]
    decide
  · have := (Nat.log2_lt h).mpr hn
    omega

theorem log2_mantissa (hn : n ≠ 0) (h : n < 2 ^ 53) : (n * 2 ^ (52 - n.log2)).log2 = 52 := by
  have := log2_le_of_lt h
  rw [log2_mul_two_pow hn]
  omega

theorem targetExponent_eq (m : ℕ) (e : ℤ) :
    Format.binary64.targetExponent (totalExponent m e) = max (m.log2 + 1 + e - 53) (-1074) := rfl

/-- Zeros that are shifted out leave no trace. -/
theorem shiftRight_exact (m k : ℕ) :
    ExtendedMantissa.ofMantissaAndAccuracy (m * 2 ^ k) .exact >>> k =
      ExtendedMantissa.ofMantissaAndAccuracy m .exact := by
  induction k generalizing m with
  | zero => rw [pow_zero, mul_one]; rfl
  | succ k ih =>
    show ExtendedMantissa.shiftRightOne
      (ExtendedMantissa.ofMantissaAndAccuracy (m * 2 ^ (k + 1)) .exact >>> k) = _
    rw [pow_succ', ← mul_assoc, ih]
    simp [ExtendedMantissa.shiftRightOne, ExtendedMantissa.ofMantissaAndAccuracy]

theorem shiftToTargetExponent_exact (hm : m.log2 = 52) (hpos : m ≠ 0) (he : -1074 ≤ e) (k : ℕ) :
    shiftToTargetExponent Format.binary64 (m * 2 ^ k) (e - k) .exact =
      (ExtendedMantissa.ofMantissaAndAccuracy m .exact, e) := by
  have htarget : Format.binary64.targetExponent (totalExponent (m * 2 ^ k) (e - k)) = e := by
    rw [targetExponent_eq, log2_mul_two_pow hpos, hm]
    omega
  have hshift : (e - (e - k)).toNat = k := by omega
  have hback : e - k + k = e := by omega
  simp only [shiftToTargetExponent, shiftToExponent, htarget, hshift, shiftRight_exact, hback]

/-- **Rounding a number with a mantissa of 53 bits does nothing.** -/
theorem roundWithAccuracy_exact (hm : m.log2 = 52) (hpos : 0 < m) (he : -1074 ≤ e) (k : ℕ) :
    roundWithAccuracy Format.binary64 .positive (m * 2 ^ k) (e - k) .exact =
      .finite .positive m e hpos := by
  have hagain := shiftToTargetExponent_exact hm hpos.ne' he 0
  have hrounded : (ExtendedMantissa.ofMantissaAndAccuracy m .exact).roundedMantissa = m := rfl
  simp only [pow_zero, mul_one, Nat.cast_zero, sub_zero] at hagain
  unfold roundWithAccuracy
  simp only [shiftToTargetExponent_exact hm hpos.ne' he, hrounded, hagain]
  exact dif_neg hpos.ne'

/-- A whole number is rounded to itself from whatever place its last bit is read. -/
theorem round_whole (hn : n ≠ 0) (h : n < 2 ^ 53) (s : ℕ) :
    UnpackedFloat.round Format.binary64 .positive (n * 2 ^ s) (-s) = whole n := by
  have hlog := log2_le_of_lt h
  have htarget : Format.binary64.targetExponent (totalExponent (n * 2 ^ s) (-s)) = n.log2 - 52 := by
    rw [targetExponent_eq, log2_mul_two_pow hn]
    omega
  -- the number is shifted to the left, or it is rounded to the right
  obtain ⟨left, right, hplaces, hone⟩ : ∃ left right : ℕ,
      s + left = 52 - n.log2 + right ∧ (left = 0 ∨ right = 0) :=
    ⟨52 - n.log2 - s, s - (52 - n.log2), by omega, by omega⟩
  have hleft : (-(s : ℤ) - (n.log2 - 52)).toNat = left := by omega
  have hmantissa : (n * 2 ^ s) <<< left = n * 2 ^ (52 - n.log2) * 2 ^ right := by
    rw [Nat.shiftLeft_eq, mul_assoc, mul_assoc, ← pow_add, ← pow_add, hplaces]
  have hexponent : -(s : ℤ) - left = n.log2 - 52 - right := by omega
  unfold UnpackedFloat.round
  simp only [htarget, decreaseExponent, hleft, hmantissa, hexponent]
  rw [roundWithAccuracy_exact (log2_mantissa hn h)
    (Nat.mul_pos (Nat.pos_of_ne_zero hn) (Nat.two_pow_pos _)) (by omega), whole, dif_neg hn]

theorem normalize_whole (h : n < 2 ^ 53) (s : ℕ) :
    UnpackedFloat.normalize Format.binary64 ((n * 2 ^ s : ℕ) : ℤ) (-s) .positive = whole n := by
  by_cases hn : n = 0
  · subst hn
    rw [Nat.zero_mul]
    rfl
  · have hpos : 0 < n * 2 ^ s := Nat.mul_pos (Nat.pos_of_ne_zero hn) (Nat.two_pow_pos s)
    have hcompare : compare ((n * 2 ^ s : ℕ) : ℤ) 0 = .gt :=
      Int.compare_eq_gt.mpr (by exact_mod_cast hpos)
    unfold UnpackedFloat.normalize
    rw [hcompare]
    exact round_whole hn h s

end rounding

/-! ## Sums and differences

Both numbers are written from the same last bit, added or subtracted as integers, and rounded, which
does nothing. -/

section arithmetic

variable {a b n k : ℕ}

theorem align_whole (hk : k ≤ n.log2) (h : n < 2 ^ 53) :
    (decreaseExponent (n * 2 ^ (52 - n.log2)) (n.log2 - 52) ((k : ℤ) - 52)).1 =
      n * 2 ^ (52 - k) := by
  have hlog := log2_le_of_lt h
  have hshift : ((n.log2 : ℤ) - 52 - (k - 52)).toNat = n.log2 - k := by omega
  have hplaces : 52 - n.log2 + (n.log2 - k) = 52 - k := by omega
  simp only [decreaseExponent, hshift]
  rw [Nat.shiftLeft_eq, mul_assoc, ← pow_add, hplaces]

/-- Before they are added, two whole numbers are written from the same last bit. -/
theorem align_both (ha : a < 2 ^ 53) (hb : b < 2 ^ 53) :
    ∃ s : ℕ, min ((a.log2 : ℤ) - 52) (b.log2 - 52) = -(s : ℤ) ∧
      (decreaseExponent (a * 2 ^ (52 - a.log2)) (a.log2 - 52) (-(s : ℤ))).1 = a * 2 ^ s ∧
      (decreaseExponent (b * 2 ^ (52 - b.log2)) (b.log2 - 52) (-(s : ℤ))).1 = b * 2 ^ s := by
  have hloga := log2_le_of_lt ha
  have hexponent : -((52 - min a.log2 b.log2 : ℕ) : ℤ) = ((min a.log2 b.log2 : ℕ) : ℤ) - 52 := by
    omega
  refine ⟨52 - min a.log2 b.log2, by omega, ?_, ?_⟩
  · rw [hexponent, align_whole (Nat.min_le_left ..) ha]
  · rw [hexponent, align_whole (Nat.min_le_right ..) hb]

/-- **Whole numbers are added exactly** as long as the sum has 53 bits. -/
theorem add_whole (h : a + b < 2 ^ 53) :
    UnpackedFloat.add Format.binary64 (whole a) (whole b) = whole (a + b) := by
  by_cases ha : a = 0
  · subst ha
    rw [Nat.zero_add]
    cases b <;> rfl
  by_cases hb : b = 0
  · subst hb
    cases a <;> rfl
  · -- two whole numbers brought to one exponent are shifted by the same amount
    obtain ⟨s, hmin, hmantissa, hmantissa'⟩ :=
      align_both (show a < 2 ^ 53 by omega) (show b < 2 ^ 53 by omega)
    have hsum : ((a * 2 ^ s : ℕ) : ℤ) + (b * 2 ^ s : ℕ) = (((a + b) * 2 ^ s : ℕ) : ℤ) := by
      push_cast
      ring
    simp only [whole, dif_neg ha, dif_neg hb, UnpackedFloat.add, hmin, hmantissa, hmantissa',
      Sign.apply]
    rw [hsum, normalize_whole h, whole]

/-- **Whole numbers are subtracted exactly.** -/
theorem sub_whole (h : a + b < 2 ^ 53) :
    UnpackedFloat.sub Format.binary64 (whole (a + b)) (whole b) = whole a := by
  by_cases hb : b = 0
  · subst hb
    rw [Nat.add_zero]
    cases a <;> rfl
  · have hne : a + b ≠ 0 := by omega
    obtain ⟨s, hmin, hmantissa, hmantissa'⟩ := align_both h (show b < 2 ^ 53 by omega)
    have hdifference : (((a + b) * 2 ^ s : ℕ) : ℤ) - (b * 2 ^ s : ℕ) = ((a * 2 ^ s : ℕ) : ℤ) := by
      push_cast
      ring
    simp only [whole, dif_neg hne, dif_neg hb, UnpackedFloat.sub, hmin, hmantissa, hmantissa',
      Sign.apply]
    rw [hdifference, normalize_whole (by omega), whole]

end arithmetic

/-! ## Packing

A whole number has full precision, with zeros at its end, and its exponent is far from both ends of
the format. -/

section packing

variable {m n : ℕ} {e : ℤ}

theorem unpackSign_packComponents (sign : Sign) (exponent : BitVec 11) (mantissa : BitVec 52) :
    unpackSign (packComponents Format.binary64 sign exponent mantissa) = sign.toBitVec := by
  show (sign.toBitVec ++ exponent ++ mantissa).extractLsb' 63 1 = sign.toBitVec
  rw [BitVec.extractLsb'_append_eq_of_le (by decide),
    BitVec.extractLsb'_append_eq_of_le (by decide)]
  cases sign <;> rfl

theorem unpack_pack_normal (sign : Sign) (hpos : 0 < m) (hm : m.log2 = 52) (hlow : -1074 ≤ e)
    (hhigh : e ≤ 971) :
    UnpackedFloat.unpack Format.binary64
        (UnpackedFloat.pack Format.binary64 (.finite sign m e hpos)) =
      .finite sign m e hpos := by
  obtain ⟨hle, hlt⟩ := (Nat.log2_eq_iff hpos.ne').mp hm
  have hbias : (e + (Format.binary64.exponentBias : ℤ) + (52 : ℕ)).toNat = (e + 1075).toNat := by
    show (e + (1023 : ℕ) + (52 : ℕ)).toNat = _
    omega
  have hexponent : (BitVec.ofNat 11 (e + 1075).toNat).toNat = (e + 1075).toNat :=
    BitVec.toNat_ofNat .. ▸ Nat.mod_eq_of_lt (by omega)
  -- the exponent is that of neither an infinity nor a zero
  have hfinite : BitVec.ofNat 11 (e + 1075).toNat ≠ -1#11 := by
    intro h
    have := hexponent.symm.trans (congrArg BitVec.toNat h)
    rw [show (-1#11).toNat = 2047 from rfl] at this
    omega
  have hnormal : BitVec.ofNat 11 (e + 1075).toNat ≠ 0#11 := by
    intro h
    have := hexponent.symm.trans (congrArg BitVec.toNat h)
    rw [show (0#11).toNat = 0 from rfl] at this
    omega
  have hmantissa : (1#1 ++ BitVec.ofNat 52 m).toNat = m := by
    rw [BitVec.toNat_append, BitVec.toNat_ofNat, Nat.shiftLeft_eq, Nat.or_comm]
    show m % 2 ^ 52 ||| 1 * 2 ^ 52 = m
    rw [one_mul, Nat.or_two_pow_eq_add_of_lt (Nat.mod_lt m (Nat.two_pow_pos 52))]
    omega
  have hplace : ((e + 1075).toNat : ℤ) - ((Format.binary64.exponentBias : ℤ) + (52 : ℕ)) = e := by
    show ((e + 1075).toNat : ℤ) - ((1023 : ℕ) + (52 : ℕ)) = e
    omega
  have hsign : Sign.ofBitVec sign.toBitVec = sign := by cases sign <;> rfl
  have hroom : ¬2 ^ Format.binary64.exponentBits ≤ (e + 1075).toNat + 1 := by
    show ¬2 ^ 11 ≤ (e + 1075).toNat + 1
    omega
  simp only [UnpackedFloat.pack, hbias, hm, if_neg hroom]
  rw [if_pos (show 52 + 1 = Format.binary64.mantissaBits from rfl)]
  simp only [UnpackedFloat.unpack, unpackMantissa_packComponents, unpackExponent_packComponents,
    unpackSign_packComponents, if_neg hfinite, if_neg hnormal, hexponent]
  simp only [hmantissa, hplace, hsign]

theorem unpack_pack_whole (h : n < 2 ^ 53) :
    UnpackedFloat.unpack Format.binary64 (UnpackedFloat.pack Format.binary64 (whole n)) =
      whole n := by
  by_cases hn : n = 0
  · subst hn
    rfl
  · have := log2_le_of_lt h
    simp only [whole, dif_neg hn]
    exact unpack_pack_normal .positive _ (log2_mantissa hn h) (by omega) (by omega)

end packing

/-! ## Doubles that are whole numbers

From unpacked forms to doubles. What a sum is exact about is its unpacked form; that a double is
known by it is used last. -/

section doubles

variable {a b n : ℕ} {x y : Float}

theorem mul_one_whole (h : n < 2 ^ 53) :
    UnpackedFloat.mul Format.binary64 (whole n) (.finite .positive (2 ^ 52) (-52) (by decide)) =
      whole n := by
  by_cases hn : n = 0
  · subst hn
    rfl
  · have := log2_le_of_lt h
    simp only [whole, dif_neg hn, UnpackedFloat.mul]
    exact roundWithAccuracy_exact (log2_mantissa hn h) _ (by omega) 52

theorem unpack_ofNat (h : n < 2 ^ 53) : (Scalar.ofNat n : Float).toModel.unpack = whole n := by
  have hpower : (Scalar.ofNat n : Float) = n.toUInt64.toFloat * Float.ofBits 0x3FF0000000000000 :=
    dif_pos ⟨h, by decide⟩
  have hword : n.toUInt64.toNat = n := Nat.mod_eq_of_lt (by omega)
  have hinteger : n.toUInt64.toFloat.toModel.unpack = whole n := by
    show UnpackedFloat.unpack Format.binary64 (UnpackedFloat.pack Format.binary64
      (UnpackedFloat.normalize Format.binary64 (n.toUInt64.toNat : ℤ) 0 .positive)) = whole n
    have hnormalize := normalize_whole h 0
    rw [pow_zero, mul_one, Nat.cast_zero, neg_zero] at hnormalize
    rw [hword, hnormalize, unpack_pack_whole h]
  have hone : (Float.ofBits 0x3FF0000000000000).toModel.unpack =
      .finite .positive (2 ^ 52) (-52) (by decide) := rfl
  rw [hpower, unpack_mul, hinteger, hone, mul_one_whole h, unpack_pack_whole h]

theorem whole_inj (h : whole a = whole b) : a = b := by
  unfold whole at h
  by_cases ha : a = 0 <;> by_cases hb : b = 0
  · rw [ha, hb]
  · rw [dif_pos ha, dif_neg hb] at h
    cases h
  · rw [dif_neg ha, dif_pos hb] at h
    cases h
  · rw [dif_neg ha, dif_neg hb] at h
    obtain ⟨-, hmantissa, hexponent⟩ := UnpackedFloat.finite.inj h
    have hlog : a.log2 = b.log2 := by omega
    rw [hlog] at hmantissa
    exact Nat.eq_of_mul_eq_mul_right (Nat.two_pow_pos _) hmantissa

theorem eq_zero_of_whole {s : Sign} (h : whole n = .zero s) : n = 0 := by
  by_contra hn
  rw [whole, dif_neg hn] at h
  cases h

/-- The double is the whole number; the number zero has two doubles. -/
def IsWhole (x : Float) (n : ℕ) : Prop :=
  x.toModel.unpack = whole n ∨ n = 0 ∧ x.toModel.unpack = .zero .negative

theorem IsWhole.unique (ha : IsWhole x a) (hb : IsWhole x b) : a = b := by
  rcases ha with ha | ⟨rfl, ha⟩ <;> rcases hb with hb | ⟨rfl, hb⟩
  · exact whole_inj (ha.symm.trans hb)
  · exact eq_zero_of_whole (ha.symm.trans hb)
  · exact (eq_zero_of_whole (hb.symm.trans ha)).symm
  · rfl

theorem eq_of_unpacked_beq {p q : UnpackedFloat} (h : p.beq q = true) :
    p = q ∨ ∃ s t, p = .zero s ∧ q = .zero t := by
  obtain ⟨place, hp, _, hq, rfl⟩ := unpacked_beq_iff.mp h
  have hplaces : unpackedPlace? p = unpackedPlace? q := Eq.trans hp (Eq.symm hq)
  have hplace : unpackedPlace? p ≠ none := fun hnone => nomatch hnone.symm.trans hp
  clear h hp hq
  rcases p with (_ | _) | _ | (_ | _) | ⟨_ | _, m, e, hm⟩ <;>
    rcases q with (_ | _) | _ | (_ | _) | ⟨_ | _, m', e', hm'⟩ <;>
    simp [unpackedPlace?] at hplaces hplace ⊢
  -- two finite numbers of one sign are left
  · exact And.comm.mp hplaces
  · exact And.comm.mp hplaces

/-- A double that compares equal to a whole number is that number. -/
theorem isWhole_of_beq (h : n < 2 ^ 53) (heq : (x == Scalar.ofNat n) = true) : IsWhole x n := by
  have hbeq : x.toModel.unpack.beq (Scalar.ofNat n : Float).toModel.unpack = true := heq
  rw [unpack_ofNat h] at hbeq
  rcases eq_of_unpacked_beq hbeq with hsame | ⟨s, t, hx, hn⟩
  · exact .inl hsame
  · obtain rfl := eq_zero_of_whole hn
    cases s with
    | positive => exact .inl hx
    | negative => exact .inr ⟨rfl, hx⟩

/-- A whole number so small that a sum of `n` such numbers is exact. It may be given by any double
that compares equal to it, so that a zero of either sign is one. -/
def Moderate (n : ℕ) (x : Float) : Prop := ∃ k : ℕ, k * n < 2 ^ 53 ∧ (x == Scalar.ofNat k) = true

theorem Moderate.isWhole (h : Moderate n x) (hn : 0 < n) : ∃ k, k * n < 2 ^ 53 ∧ IsWhole x k := by
  obtain ⟨k, hk, heq⟩ := h
  exact ⟨k, hk, isWhole_of_beq ((Nat.le_mul_of_pos_right k hn).trans_lt hk) heq⟩

theorem add_negative_zero (a : ℕ) :
    UnpackedFloat.add Format.binary64 (whole a) (.zero .negative) = whole a := by
  cases a <;> rfl

theorem sub_negative_zero (a : ℕ) :
    UnpackedFloat.sub Format.binary64 (whole a) (.zero .negative) = whole a := by
  cases a <;> rfl

/-- **A whole number is added to a sum exactly.** -/
theorem unpack_add_isWhole (hx : x.toModel.unpack = whole a) (hy : IsWhole y b)
    (h : a + b < 2 ^ 53) : (x + y).toModel.unpack = whole (a + b) := by
  have hadd : UnpackedFloat.add Format.binary64 x.toModel.unpack y.toModel.unpack =
      whole (a + b) := by
    rcases hy with hy | ⟨rfl, hy⟩
    · rw [hx, hy, add_whole h]
    · rw [hx, hy, add_negative_zero, Nat.add_zero]
  rw [unpack_add, hadd, unpack_pack_whole h]

/-- **A whole number is taken from a sum exactly.** -/
theorem unpack_sub_isWhole (hx : x.toModel.unpack = whole (a + b)) (hy : IsWhole y b)
    (h : a + b < 2 ^ 53) : (x - y).toModel.unpack = whole a := by
  have hsub : UnpackedFloat.sub Format.binary64 x.toModel.unpack y.toModel.unpack = whole a := by
    rcases hy with hy | ⟨rfl, hy⟩
    · rw [hx, hy, sub_whole h]
    · rw [hx, hy, sub_negative_zero, Nat.add_zero]
  rw [unpack_sub, hsub, unpack_pack_whole (by omega)]

end doubles

end MarketReplay.Double
