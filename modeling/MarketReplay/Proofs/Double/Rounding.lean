import MarketReplay.Proofs.Double.Whole

/-!
# Rounding

Operations on doubles round an exact number to the nearest multiple of a power of two. What is kept
of this here is that a rounded number has a mantissa of 53 bits, and differs from the exact one by
half a unit of that mantissa at most (`IsRounding`). The bits that are shifted out of a mantissa
leave two bits behind, which say as much about them as rounding needs (`Represents`).

**Rounding stays below a canonical number** (`IsRounding.le`) if what is rounded does, or exceeds it
by less than half a unit.
-/

set_option autoImplicit false

namespace MarketReplay.Double

open Float.Model Float.Model.UnpackedFloat

/-! ## Values

The canonical numbers are those that rounding can end with. Each has one mantissa and one exponent,
so that they can be compared by these. -/

/-- The number an unpacked double stands for; zero if it is infinite or `NaN`. The zero has no
meaning there, and every lemma about values asks for a finite number or gives one. -/
def unpackedValue : UnpackedFloat → ℚ
  | .finite s m e _ => (s.apply m : ℤ) * 2 ^ e
  | _ => 0

/-- A mantissa of 53 bits at most, and of no less unless the exponent is the least. Numbers written
like this are equal only if they are written the same, and a double holds no others. -/
structure Canonical (m : ℕ) (e : ℤ) : Prop where
  lt : m < 2 ^ 53
  least : -1074 ≤ e
  full : e = -1074 ∨ 2 ^ 52 ≤ m

/-- A finite number with a canonical mantissa. -/
inductive IsCanonical : UnpackedFloat → Prop
  | zero (s : Sign) : IsCanonical (.zero s)
  | finite (s : Sign) {m : ℕ} {e : ℤ} (hm : 0 < m) (h : Canonical m e) :
      IsCanonical (.finite s m e hm)

theorem IsCanonical.isFinite {u : UnpackedFloat} (hu : IsCanonical u) : u.isFinite = true := by
  cases hu <;> rfl

theorem abs_unpackedValue_finite (s : Sign) (m : ℕ) (e : ℤ) (hm : 0 < m) :
    |unpackedValue (.finite s m e hm)| = m * 2 ^ e := by
  have hpow : (0 : ℚ) ≤ 2 ^ e := by positivity
  have hsign : |((s.apply m : ℤ) : ℚ)| = m := by cases s <;> simp [Sign.apply]
  rw [unpackedValue, abs_mul, hsign, abs_of_nonneg hpow]

theorem carry_le_full {e t : ℤ} (h : e < t) : (2 : ℚ) ^ 53 * 2 ^ e ≤ 2 ^ 52 * 2 ^ t := by
  calc (2 : ℚ) ^ 53 * 2 ^ e = 2 ^ 52 * 2 ^ (e + 1) := by rw [zpow_add_one₀ two_ne_zero]; ring
    _ ≤ 2 ^ 52 * 2 ^ t :=
      mul_le_mul_of_nonneg_left (zpow_le_zpow_right₀ one_le_two h) (by positivity)

theorem Canonical.mul_lt {m m' : ℕ} {e e' : ℤ} (h : Canonical m e) (h' : Canonical m' e')
    (hlt : e < e' ∨ e = e' ∧ m < m') : (m : ℚ) * 2 ^ e < m' * 2 ^ e' := by
  have hpow : (0 : ℚ) < 2 ^ e := by positivity
  rcases hlt with hlt | ⟨rfl, hlt⟩
  · have hfull : 2 ^ 52 ≤ m' := h'.full.resolve_left (by have := h.least; omega)
    calc (m : ℚ) * 2 ^ e
        < 2 ^ 53 * 2 ^ e := mul_lt_mul_of_pos_right (by exact_mod_cast h.lt) hpow
      _ ≤ 2 ^ 52 * 2 ^ e' := carry_le_full hlt
      _ ≤ m' * 2 ^ e' := by
        gcongr
        exact_mod_cast hfull
  · exact mul_lt_mul_of_pos_right (by exact_mod_cast hlt) hpow

/-! ## Mantissas with a remainder

A number is cut off behind its mantissa, and two bits say whether anything was cut off and on which
side of a half it lay. Shifting keeps this true, and rounding goes by it. -/

/-- What the two bits behind a mantissa say about the number it was cut from. They do not tell the
number, but on which side of a half it lies, and rounding needs no more. -/
def Represents (em : ExtendedMantissa) (μ : ℚ) : Prop :=
  match em.roundBit, em.stickyBit with
  | false, false => μ = em.mantissa
  | false, true => em.mantissa < μ ∧ μ < em.mantissa + 1 / 2
  | true, false => μ = em.mantissa + 1 / 2
  | true, true => em.mantissa + 1 / 2 < μ ∧ μ < em.mantissa + 1

section mantissas

variable {em : ExtendedMantissa} {μ : ℚ}

theorem represents_exact (m : ℕ) :
    Represents (ExtendedMantissa.ofMantissaAndAccuracy m .exact) m := rfl

theorem Represents.bounds (h : Represents em μ) : em.mantissa ≤ μ ∧ μ < em.mantissa + 1 := by
  rcases em with ⟨m, _ | _, _ | _⟩ <;> simp only [Represents] at h ⊢ <;>
    constructor <;> linarith

theorem Represents.shiftRightOne (h : Represents em μ) : Represents em.shiftRightOne (μ / 2) := by
  rcases em with ⟨m, r, s⟩
  -- the last place becomes the bit that rounds, and the bit before joins those that are only kept
  -- as inexact
  obtain ⟨k, rfl | rfl⟩ := Nat.even_or_odd' m
  · have hhalf : 2 * k / 2 = k := by omega
    have hbit : (2 * k % 2 != 0) = false := by simp
    rcases r with _ | _ <;> rcases s with _ | _ <;>
      simp only [Represents, ExtendedMantissa.shiftRightOne, hhalf, hbit, Bool.or_false,
        Bool.or_true, Nat.cast_mul, Nat.cast_ofNat] at h ⊢
    · linarith
    all_goals constructor <;> linarith
  · have hhalf : (2 * k + 1) / 2 = k := by omega
    have hbit : ((2 * k + 1) % 2 != 0) = true := by simp
    rcases r with _ | _ <;> rcases s with _ | _ <;>
      simp only [Represents, ExtendedMantissa.shiftRightOne, hhalf, hbit, Bool.or_false,
        Bool.or_true, Nat.cast_add, Nat.cast_mul, Nat.cast_ofNat, Nat.cast_one] at h ⊢
    · linarith
    all_goals constructor <;> linarith

theorem Represents.shiftRight (h : Represents em μ) (k : ℕ) :
    Represents (em >>> k) (μ / 2 ^ k) := by
  induction k with
  | zero =>
    rw [pow_zero, div_one]
    exact h
  | succ k ih =>
    rw [pow_succ, ← div_div]
    exact ih.shiftRightOne

/-- The rounded mantissa is half a unit off at most. Ties go to the even one, and this bound does
not show which way they went. -/
theorem Represents.abs_sub_le (h : Represents em μ) : |(em.roundedMantissa : ℚ) - μ| ≤ 1 / 2 := by
  rcases em with ⟨m, _ | _, _ | _⟩ <;>
    simp only [Represents, ExtendedMantissa.roundedMantissa, ExtendedMantissa.accuracy,
      Accuracy.roundToNearestEven] at h ⊢ <;> rw [abs_le]
  · constructor <;> linarith
  · constructor <;> linarith
  · rcases Nat.mod_two_eq_zero_or_one m with hbit | hbit <;> rw [hbit] <;> push_cast <;>
      constructor <;> linarith
  · push_cast
    constructor <;> linarith

end mantissas

/-! ## Rounded numbers

From the mantissa to the number. The unit is the place of the last bit, and it depends on the size
of the number that is rounded. -/

/-- The exponent at which a number of the given size is written. Half of this unit is what rounding
may change. -/
structure IsUnit (a : ℚ) (t : ℤ) : Prop where
  least : -1074 ≤ t
  low : t = -1074 ∨ 2 ^ 52 * 2 ^ t ≤ a
  high : a < 2 ^ 53 * 2 ^ t

/-- The unpacked double is a number of the given size, rounded: it is half a unit off at most. Which
way a tie goes is not said, since no bound depends on it. -/
def IsRounding (a : ℚ) (u : UnpackedFloat) : Prop :=
  IsCanonical u ∧ ∃ (r : ℕ) (t : ℤ), IsUnit a t ∧ |unpackedValue u| = r * 2 ^ t ∧
    |r * 2 ^ t - a| ≤ 2 ^ t / 2

section rounding

variable {a μ : ℚ} {m r : ℕ} {e t : ℤ} {s : Sign} {accuracy : Accuracy}

/-- The target exponent is the unit of the number that is rounded. -/
theorem isUnit_target (h : Represents (ExtendedMantissa.ofMantissaAndAccuracy m accuracy) μ)
    (he : e ≤ Format.binary64.targetExponent (totalExponent m e)) :
    IsUnit (μ * 2 ^ e) (Format.binary64.targetExponent (totalExponent m e)) := by
  have hmantissa : (ExtendedMantissa.ofMantissaAndAccuracy m accuracy).mantissa = m := by
    rcases accuracy with _ | (_ | _ | _) <;> rfl
  obtain ⟨hlow, hhigh⟩ := h.bounds
  rw [hmantissa] at hlow hhigh
  have hpow : (0 : ℚ) < 2 ^ e := by positivity
  rw [targetExponent_eq] at he ⊢
  constructor
  case least => exact le_max_right _ _
  case low =>
    -- at the least exponent the mantissa need not be full
    by_cases hleast : (m.log2 : ℤ) + 1 + e - 53 ≤ -1074
    · exact .inl (max_eq_right hleast)
    · rw [max_eq_left (by omega)] at he ⊢
      have hm : m ≠ 0 := by
        rintro rfl
        rw [Nat.log2_zero] at he
        omega
      right
      calc (2 : ℚ) ^ 52 * 2 ^ ((m.log2 : ℤ) + 1 + e - 53)
          = 2 ^ ((52 : ℕ) : ℤ) * 2 ^ ((m.log2 : ℤ) + 1 + e - 53) := by rw [zpow_natCast]
        _ = 2 ^ (m.log2 : ℤ) * 2 ^ e := by
          rw [← zpow_add₀ two_ne_zero, ← zpow_add₀ two_ne_zero]
          congr 1
          push_cast
          ring
        _ = (2 ^ m.log2 : ℕ) * 2 ^ e := by rw [zpow_natCast]; push_cast; rfl
        _ ≤ m * 2 ^ e := by
          gcongr
          exact_mod_cast Nat.log2_self_le hm
        _ ≤ μ * 2 ^ e := by gcongr
  case high =>
    calc μ * 2 ^ e < (m + 1 : ℕ) * 2 ^ e := by
          push_cast
          exact mul_lt_mul_of_pos_right hhigh hpow
      _ ≤ (2 ^ (m.log2 + 1) : ℕ) * 2 ^ e := by
        gcongr
        exact Nat.lt_log2_self
      _ = 2 ^ ((m.log2 : ℤ) + 1 + e) := by
        rw [zpow_add₀ two_ne_zero, ← Nat.cast_succ, zpow_natCast]
        push_cast
        rfl
      _ ≤ 2 ^ (53 + max ((m.log2 : ℤ) + 1 + e - 53) (-1074)) :=
        zpow_le_zpow_right₀ one_le_two (by omega)
      _ = 2 ^ 53 * 2 ^ max ((m.log2 : ℤ) + 1 + e - 53) (-1074) := by
        rw [zpow_add₀ two_ne_zero]
        rfl

/-- The second shift only takes back a carry. After rounding there is nothing behind the mantissa,
and a carry ends in a zero, so that the shift loses nothing. -/
theorem shift_carry (hr : r ≤ 2 ^ 53) (ht : -1074 ≤ t) :
    shiftToTargetExponent Format.binary64 r t .exact =
      if r = 2 ^ 53 then (ExtendedMantissa.ofMantissaAndAccuracy (2 ^ 52) .exact, t + 1)
      else (ExtendedMantissa.ofMantissaAndAccuracy r .exact, t) := by
  split
  · rename_i hcarry
    subst hcarry
    -- rounding up all ones gives one place more, which is shifted out as a zero
    have hlog : Nat.log2 (2 ^ 53) = 53 := Nat.log2_two_pow
    have hone : (max (((53 : ℕ) : ℤ) + 1 + t - 53) (-1074) - t).toNat = 1 := by omega
    unfold shiftToTargetExponent shiftToExponent
    simp only [targetExponent_eq, hlog, hone]
    rfl
  · have hlog : r.log2 ≤ 52 := log2_le_of_lt (by omega)
    have hzero : (max ((r.log2 : ℤ) + 1 + t - 53) (-1074) - t).toNat = 0 := by omega
    unfold shiftToTargetExponent shiftToExponent
    simp only [targetExponent_eq, hzero]
    exact congrArg (Prod.mk _) (add_zero t)

theorem IsUnit.mantissa_le (hunit : IsUnit a t) (hr : |r * 2 ^ t - a| ≤ 2 ^ t / 2) :
    r ≤ 2 ^ 53 := by
  have hpow : (0 : ℚ) < 2 ^ t := by positivity
  have hlt : ((r : ℕ) : ℚ) * 2 ^ t < ((2 ^ 53 + 1 : ℕ) : ℚ) * 2 ^ t := by
    push_cast
    linarith [hunit.high, (abs_le.mp hr).2]
  exact Nat.lt_succ_iff.mp (by exact_mod_cast lt_of_mul_lt_mul_right hlt hpow.le)

theorem IsUnit.le_mantissa (hunit : IsUnit a t) (hr : |r * 2 ^ t - a| ≤ 2 ^ t / 2) :
    t = -1074 ∨ 2 ^ 52 ≤ r := by
  have hpow : (0 : ℚ) < 2 ^ t := by positivity
  refine hunit.low.imp_right fun hlow => ?_
  have hlt : ((2 ^ 52 : ℕ) : ℚ) * 2 ^ t < ((r + 1 : ℕ) : ℚ) * 2 ^ t := by
    push_cast
    linarith [(abs_le.mp hr).1]
  exact Nat.lt_succ_iff.mp (by exact_mod_cast lt_of_mul_lt_mul_right hlt hpow.le)

/-- The number that comes of a rounded mantissa, its carry taken back. A carry makes a mantissa of
54 bits, which is a power of two and loses nothing when it is halved. -/
def carried (s : Sign) (r : ℕ) (t : ℤ) : UnpackedFloat :=
  if h : r = 0 then .zero s
  else if r = 2 ^ 53 then .finite s (2 ^ 52) (t + 1) (Nat.two_pow_pos 52)
  else .finite s r t (Nat.pos_of_ne_zero h)

theorem roundWithAccuracy_eq_carried {em : ExtendedMantissa}
    (hshift : shiftToTargetExponent Format.binary64 m e accuracy = (em, t))
    (hr : em.roundedMantissa ≤ 2 ^ 53) (ht : -1074 ≤ t) :
    roundWithAccuracy Format.binary64 s m e accuracy = carried s em.roundedMantissa t := by
  unfold roundWithAccuracy carried
  simp only [hshift, shift_carry hr ht]
  by_cases hcarry : em.roundedMantissa = 2 ^ 53
  · simp only [hcarry]
    rfl
  · simp only [if_neg hcarry]
    rfl

/-- A rounded mantissa whose carry is taken back is canonical, and a rounding of the number. -/
theorem IsUnit.isRounding (hunit : IsUnit a t) (hr : |r * 2 ^ t - a| ≤ 2 ^ t / 2) :
    IsRounding a (carried s r t) := by
  have hle := hunit.mantissa_le hr
  have hleast := hunit.least
  -- the mantissa and its unit are what is carried, whether or not they are written with one place
  -- less
  suffices h : IsCanonical (carried s r t) ∧ |unpackedValue (carried s r t)| = r * 2 ^ t from
    ⟨h.1, r, t, hunit, h.2, hr⟩
  unfold carried
  split
  · rename_i hzero
    rw [hzero, Nat.cast_zero, zero_mul]
    exact ⟨.zero s, abs_zero⟩
  · split
    · rename_i hcarry
      refine ⟨.finite s _ ⟨by norm_num, by omega, .inr le_rfl⟩, ?_⟩
      rw [abs_unpackedValue_finite, hcarry, zpow_add_one₀ two_ne_zero]
      push_cast
      ring
    · exact ⟨.finite s _ ⟨by omega, hleast, hunit.le_mantissa hr⟩, abs_unpackedValue_finite ..⟩

/-- **What is rounded with its remainder is half a unit off at most.** All that is asked is that the
remainder tells the truth, and that enough bits were worked out. -/
theorem isRounding_roundWithAccuracy (s : Sign)
    (h : Represents (ExtendedMantissa.ofMantissaAndAccuracy m accuracy) μ)
    (he : e ≤ Format.binary64.targetExponent (totalExponent m e)) :
    IsRounding (μ * 2 ^ e) (roundWithAccuracy Format.binary64 s m e accuracy) := by
  have hunit := isUnit_target h he
  have hshift : shiftToTargetExponent Format.binary64 m e accuracy = shiftToExponent m e accuracy
    (Format.binary64.targetExponent (totalExponent m e)) := rfl
  generalize Format.binary64.targetExponent (totalExponent m e) = t at he hunit hshift
  obtain ⟨k, rfl⟩ : ∃ k : ℕ, t = e + k := ⟨(t - e).toNat, by omega⟩
  have hk : (e + k - e).toNat = k := by omega
  simp only [shiftToExponent, hk] at hshift
  have hrepresents := h.shiftRight k
  generalize ExtendedMantissa.ofMantissaAndAccuracy m accuracy >>> k = em at hshift hrepresents
  have hpow : (0 : ℚ) ≤ 2 ^ (e + k : ℤ) := by positivity
  have hr : |em.roundedMantissa * 2 ^ (e + k : ℤ) - μ * 2 ^ e| ≤ 2 ^ (e + k : ℤ) / 2 := by
    -- the error is measured in units of the target, where it is the error of a mantissa
    have hsame : (em.roundedMantissa : ℚ) * 2 ^ (e + k : ℤ) - μ * 2 ^ e =
        (em.roundedMantissa - μ / 2 ^ k) * 2 ^ (e + k : ℤ) := by
      rw [zpow_add₀ two_ne_zero, zpow_natCast]
      field_simp
    calc |em.roundedMantissa * 2 ^ (e + k : ℤ) - μ * 2 ^ e|
        = |em.roundedMantissa - μ / 2 ^ k| * 2 ^ (e + k : ℤ) := by
          rw [hsame, abs_mul, abs_of_nonneg hpow]
      _ ≤ 1 / 2 * 2 ^ (e + k : ℤ) := mul_le_mul_of_nonneg_right hrepresents.abs_sub_le hpow
      _ = 2 ^ (e + k : ℤ) / 2 := by ring
  rw [roundWithAccuracy_eq_carried hshift (hunit.mantissa_le hr) hunit.least]
  exact hunit.isRounding hr

theorem isRounding_of_isCanonical {u : UnpackedFloat} (hu : IsCanonical u) :
    IsRounding |unpackedValue u| u := by
  refine ⟨hu, ?_⟩
  cases hu with
  | zero s =>
    simp only [unpackedValue, abs_zero]
    refine ⟨0, -1074, ⟨le_rfl, .inl rfl, by positivity⟩, (zero_mul _).symm, ?_⟩
    rw [Nat.cast_zero, zero_mul, sub_zero, abs_zero]
    positivity
  | @finite s m e hm h =>
    rw [abs_unpackedValue_finite]
    refine ⟨m, e, ⟨h.least, h.full.imp_right fun hfull => ?_, ?_⟩, rfl, ?_⟩
    · gcongr
      exact_mod_cast hfull
    · gcongr
      exact_mod_cast h.lt
    · rw [sub_self, abs_zero]
      positivity

theorem decreaseExponent_eq (m : ℕ) (e t : ℤ) :
    ∃ k : ℕ, decreaseExponent m e t = (m * 2 ^ k, min e t) ∧ e - k = min e t := by
  refine ⟨(e - t).toNat, ?_, by omega⟩
  rw [decreaseExponent, Nat.shiftLeft_eq, show e - (e - t).toNat = min e t by omega]

theorem mul_two_pow_eq (m : ℕ) {k : ℕ} {e t : ℤ} (h : e - k = t) :
    ((m * 2 ^ k : ℕ) : ℚ) * 2 ^ t = m * 2 ^ e := by
  obtain rfl : e = k + t := by omega
  rw [zpow_add₀ two_ne_zero, zpow_natCast]
  push_cast
  ring

theorem isRounding_round (s : Sign) (hm : m ≠ 0) (e : ℤ) :
    IsRounding (m * 2 ^ e) (UnpackedFloat.round Format.binary64 s m e) := by
  unfold UnpackedFloat.round
  obtain ⟨k, hdecrease, hk⟩ :=
    decreaseExponent_eq m e (Format.binary64.targetExponent (totalExponent m e))
  simp only [hdecrease]
  rw [← mul_two_pow_eq m hk]
  refine isRounding_roundWithAccuracy s (represents_exact _) ?_
  simp only [targetExponent_eq, log2_mul_two_pow hm] at hk ⊢
  omega

theorem isRounding_zero (s : Sign) : IsRounding 0 (.zero s) :=
  abs_zero (α := ℚ) ▸ isRounding_of_isCanonical (.zero s)

theorem isRounding_normalize (z e : ℤ) :
    IsRounding |(z : ℚ) * 2 ^ e| (UnpackedFloat.normalize Format.binary64 z e .positive) := by
  have hpow : (0 : ℚ) ≤ 2 ^ e := by positivity
  have hsize : |(z : ℚ) * 2 ^ e| = z.natAbs * 2 ^ e := by
    rw [abs_mul, abs_of_nonneg hpow, Nat.cast_natAbs, Int.cast_abs]
  unfold UnpackedFloat.normalize
  rw [hsize]
  rcases lt_trichotomy z 0 with hz | rfl | hz
  · rw [Int.compare_eq_lt.mpr hz, ← show (-z).toNat = z.natAbs by omega]
    exact isRounding_round _ (by omega) e
  · simpa using isRounding_zero .positive
  · rw [Int.compare_eq_gt.mpr hz, ← show z.toNat = z.natAbs by omega]
    exact isRounding_round _ (by omega) e

/-- **Rounding stays below a canonical number** if what is rounded exceeds it by less than half a
unit. -/
theorem IsRounding.le {u : UnpackedFloat} (hu : IsRounding a u) (hme : Canonical m e)
    (ha : a < (m + 1 / 2) * 2 ^ e) : |unpackedValue u| ≤ m * 2 ^ e := by
  obtain ⟨-, r, t, hunit, hvalue, hr⟩ := hu
  have hpow : (0 : ℚ) < 2 ^ t := by positivity
  rw [hvalue]
  rcases lt_trichotomy t e with hlt | rfl | hgt
  · -- a number of more than one unit is a full mantissa, which is no less than the carry
    have hfull : 2 ^ 52 ≤ m := hme.full.resolve_left (by have := hunit.least; omega)
    calc (r : ℚ) * 2 ^ t ≤ 2 ^ 53 * 2 ^ t := by
          gcongr
          exact_mod_cast hunit.mantissa_le hr
      _ ≤ 2 ^ 52 * 2 ^ e := carry_le_full hlt
      _ ≤ m * 2 ^ e := by
        gcongr
        exact_mod_cast hfull
  · have hmantissa : (r : ℚ) * 2 ^ t < ((m + 1 : ℕ) : ℚ) * 2 ^ t := by
      push_cast
      linarith [(abs_le.mp hr).2]
    have hmantissa : r < m + 1 := by exact_mod_cast lt_of_mul_lt_mul_right hmantissa hpow.le
    gcongr
    exact_mod_cast Nat.lt_succ_iff.mp hmantissa
  · -- then what is rounded would be less than a unit of its own
    have hlow := hunit.low.resolve_left (by have := hme.least; omega)
    have hhalf : (m + 1 / 2 : ℚ) * 2 ^ e < 2 ^ 52 * 2 ^ t := by
      have hmantissa : (m + 1 / 2 : ℚ) < 2 ^ 53 := by
        have : (m : ℚ) + 1 ≤ 2 ^ 53 := by exact_mod_cast hme.lt
        linarith
      calc (m + 1 / 2 : ℚ) * 2 ^ e < 2 ^ 53 * 2 ^ e := by gcongr
        _ ≤ 2 ^ 52 * 2 ^ t := carry_le_full hgt
    exact absurd (hlow.trans_lt ha) hhalf.not_gt

end rounding

end MarketReplay.Double
