import Mathlib.Data.Prod.Lex
import Mathlib.Tactic.NormNum
import MarketReplay.Performance.Drawdown

/-!
# Doubles and their order

What the comparisons of doubles say. A double that is not `NaN` has a place in a linear order
(`Double.place?`), the two zeros the same one, and **the comparisons compare the places**
(`Double.lt_iff`, `Double.le_iff`, `Double.isNaN_eq_false_iff`). From this follows what maxima and
bounds come to: the maximum of numbers that are not `NaN` is one of them and not below any
(`Double.foldl_max`), and a finite number lies within the bounds of the format
(`Double.bounded_of_isFinite`).

A result of arithmetic is worked out unpacked, packed into the format and unpacked again
(`Double.unpack_add` and its likes). What that comes to is no matter of order, and is left to the
modules below this one.
-/

set_option autoImplicit false

namespace MarketReplay.Double

open Float.Model Float.Model.UnpackedFloat

/-! ## Places

The comparisons of the format go by cases on signs and kinds. A place puts these into one key, whose
order is linear, so that each law of the comparisons is proved once, by the law for keys. -/

/-- The place of an unpacked double: its kind and sign, then the exponent, then the mantissa. For a
negative number exponent and mantissa count the other way round. -/
def unpackedPlace? : UnpackedFloat → Option (ℤ ×ₗ ℤ ×ₗ ℤ)
  | .notANumber => none
  | .infinity .negative => some (toLex (-2, toLex (0, 0)))
  | .finite .negative m e _ => some (toLex (-1, toLex (-e, -(m : ℤ))))
  | .zero _ => some (toLex (0, toLex (0, 0)))
  | .finite .positive m e _ => some (toLex (1, toLex (e, (m : ℤ))))
  | .infinity .positive => some (toLex (2, toLex (0, 0)))

theorem unpacked_lt_iff {a b : UnpackedFloat} :
    a.lt b = true ↔ ∃ p ∈ unpackedPlace? a, ∃ q ∈ unpackedPlace? b, p < q := by
  unfold UnpackedFloat.lt
  rcases a with (_ | _) | _ | (_ | _) | ⟨_ | _, m, e, hm⟩ <;>
    rcases b with (_ | _) | _ | (_ | _) | ⟨_ | _, m', e', hm'⟩ <;>
    dsimp only [UnpackedFloat.compare, unpackedPlace?] <;>
    simp [Prod.Lex.lt_iff, Ordering.then_eq_lt, Ordering.then_eq_gt, Ordering.swap_eq_lt,
      Int.compare_eq_lt, Int.compare_eq_gt, Nat.compare_eq_lt, Nat.compare_eq_gt]
  -- two infinities of different sign are left
  rfl

theorem unpacked_beq_iff {a b : UnpackedFloat} :
    a.beq b = true ↔ ∃ p ∈ unpackedPlace? a, ∃ q ∈ unpackedPlace? b, p = q := by
  unfold UnpackedFloat.beq
  rcases a with (_ | _) | _ | (_ | _) | ⟨_ | _, m, e, hm⟩ <;>
    rcases b with (_ | _) | _ | (_ | _) | ⟨_ | _, m', e', hm'⟩ <;>
    dsimp only [UnpackedFloat.compare, unpackedPlace?] <;>
    simp [Ordering.then_eq_eq]
  -- two infinities of one sign are left, and two finite numbers of one sign
  · rfl
  · rfl
  · exact and_congr eq_comm eq_comm
  · exact and_congr eq_comm eq_comm

theorem unpacked_le_iff {a b : UnpackedFloat} :
    a.le b = true ↔ ∃ p ∈ unpackedPlace? a, ∃ q ∈ unpackedPlace? b, p ≤ q := by
  have hor : a.le b = (a.lt b || a.beq b) := by
    unfold UnpackedFloat.le UnpackedFloat.lt UnpackedFloat.beq
    rcases a.compare b with _ | (_ | _ | _) <;> rfl
  -- at most is below or equal, of the numbers as of their places
  rw [hor, Bool.or_eq_true, unpacked_lt_iff, unpacked_beq_iff]
  constructor
  · rintro (⟨p, hp, q, hq, h⟩ | ⟨p, hp, q, hq, h⟩)
    · exact ⟨p, hp, q, hq, le_of_lt h⟩
    · exact ⟨p, hp, q, hq, le_of_eq h⟩
  · rintro ⟨p, hp, q, hq, h⟩
    rcases lt_or_eq_of_le h with h | h
    · exact .inl ⟨p, hp, q, hq, h⟩
    · exact .inr ⟨p, hp, q, hq, h⟩

/-- The place of a double, if it is not `NaN`. Comparisons of doubles become comparisons in a linear
order, where the library has its lemmas. -/
def place? (x : Float) : Option (ℤ ×ₗ ℤ ×ₗ ℤ) := unpackedPlace? x.toModel.unpack

section order

variable {x y z : Float}

theorem lt_iff : x < y ↔ ∃ p ∈ place? x, ∃ q ∈ place? y, p < q := by
  show decide (x.toModel < y.toModel) = true ↔ _
  rw [decide_eq_true_eq]
  exact unpacked_lt_iff

theorem le_iff : x ≤ y ↔ ∃ p ∈ place? x, ∃ q ∈ place? y, p ≤ q := by
  show decide (x.toModel ≤ y.toModel) = true ↔ _
  rw [decide_eq_true_eq]
  exact unpacked_le_iff

theorem isNaN_eq_false_iff : Scalar.isNaN x = false ↔ ∃ p, place? x = some p := by
  have hself : Scalar.isNaN x = !(x.toModel.unpack.beq x.toModel.unpack) := rfl
  rw [hself, Bool.not_eq_false', unpacked_beq_iff]
  constructor
  · rintro ⟨p, hp, -⟩
    exact ⟨p, hp⟩
  · rintro ⟨p, hp⟩
    exact ⟨p, hp, p, hp, rfl⟩

theorem lt_trans (hxy : x < y) (hyz : y < z) : x < z := by
  obtain ⟨p, hp, q, hq, hpq⟩ := lt_iff.mp hxy
  obtain ⟨q', hq', r, hr, hqr⟩ := lt_iff.mp hyz
  obtain rfl := Option.mem_unique hq hq'
  exact lt_iff.mpr ⟨p, hp, r, hr, hpq.trans hqr⟩

theorem le_trans (hxy : x ≤ y) (hyz : y ≤ z) : x ≤ z := by
  obtain ⟨p, hp, q, hq, hpq⟩ := le_iff.mp hxy
  obtain ⟨q', hq', r, hr, hqr⟩ := le_iff.mp hyz
  obtain rfl := Option.mem_unique hq hq'
  exact le_iff.mpr ⟨p, hp, r, hr, hpq.trans hqr⟩

theorem lt_of_le_of_lt (hxy : x ≤ y) (hyz : y < z) : x < z := by
  obtain ⟨p, hp, q, hq, hpq⟩ := le_iff.mp hxy
  obtain ⟨q', hq', r, hr, hqr⟩ := lt_iff.mp hyz
  obtain rfl := Option.mem_unique hq hq'
  exact lt_iff.mpr ⟨p, hp, r, hr, hpq.trans_lt hqr⟩

theorem not_lt_of_le (hxy : x ≤ y) : ¬y < x := by
  intro hyx
  obtain ⟨p, hp, q, hq, hpq⟩ := le_iff.mp hxy
  obtain ⟨q', hq', p', hp', hqp⟩ := lt_iff.mp hyx
  obtain rfl := Option.mem_unique hp hp'
  obtain rfl := Option.mem_unique hq hq'
  exact not_lt_of_ge hpq hqp

theorem lt_or_le (hx : Scalar.isNaN x = false) (hy : Scalar.isNaN y = false) :
    x < y ∨ y ≤ x := by
  obtain ⟨p, hp⟩ := isNaN_eq_false_iff.mp hx
  obtain ⟨q, hq⟩ := isNaN_eq_false_iff.mp hy
  rcases lt_or_ge p q with h | h
  · exact .inl (lt_iff.mpr ⟨p, hp, q, hq, h⟩)
  · exact .inr (le_iff.mpr ⟨q, hq, p, hp, h⟩)

theorem le_of_lt (hxy : x < y) : x ≤ y := by
  obtain ⟨p, hp, q, hq, h⟩ := lt_iff.mp hxy
  exact le_iff.mpr ⟨p, hp, q, hq, h.le⟩

theorem le_self (hx : Scalar.isNaN x = false) : x ≤ x := by
  obtain ⟨p, hp⟩ := isNaN_eq_false_iff.mp hx
  exact le_iff.mpr ⟨p, hp, p, hp, le_refl p⟩

theorem isNaN_of_lt (hxy : x < y) : Scalar.isNaN x = false ∧ Scalar.isNaN y = false := by
  obtain ⟨p, hp, q, hq, -⟩ := lt_iff.mp hxy
  exact ⟨isNaN_eq_false_iff.mpr ⟨p, hp⟩, isNaN_eq_false_iff.mpr ⟨q, hq⟩⟩

end order

/-! ## Maxima

A maximum that goes past every `NaN`. Where there is none it is the maximum of a linear order. -/

theorem max_cases {x y : Float} (hx : Scalar.isNaN x = false) (hy : Scalar.isNaN y = false) :
    Scalar.max x y = y ∧ x ≤ y ∨ Scalar.max x y = x ∧ y ≤ x := by
  unfold Scalar.max
  rw [hx, if_neg Bool.false_ne_true]
  rcases lt_or_le hx hy with h | h
  · exact .inl ⟨if_pos h, le_of_lt h⟩
  · exact .inr ⟨if_neg (not_lt_of_le h), h⟩

/-- **The maximum of numbers that are not `NaN`** is one of them and not below any. A `NaN` among
them would be passed over, and would not be below it. -/
theorem foldl_max {xs : List Float} {x : Float} (hx : Scalar.isNaN x = false)
    (hxs : ∀ y ∈ xs, Scalar.isNaN y = false) :
    xs.foldl Scalar.max x ∈ x :: xs ∧ ∀ y ∈ x :: xs, y ≤ xs.foldl Scalar.max x := by
  induction xs generalizing x with
  | nil =>
    refine ⟨List.mem_singleton_self x, ?_⟩
    rintro y hy
    rw [List.mem_singleton.mp hy]
    exact le_self hx
  | cons y ys ih =>
    have hy := hxs y List.mem_cons_self
    have hys : ∀ z ∈ ys, Scalar.isNaN z = false := fun z hz => hxs z (List.mem_cons_of_mem y hz)
    rw [List.foldl_cons]
    -- the maximum of the first two is one of them, and the other stays below whatever comes of it
    rcases max_cases hx hy with ⟨hmax, hle⟩ | ⟨hmax, hle⟩
    · rw [hmax]
      obtain ⟨hmem, hbound⟩ := ih hy hys
      refine ⟨List.mem_cons_of_mem x hmem, List.forall_mem_cons.mpr ⟨?_, hbound⟩⟩
      exact le_trans hle (hbound y List.mem_cons_self)
    · rw [hmax]
      obtain ⟨hmem, hbound⟩ := ih hx hys
      obtain ⟨hx', hys'⟩ := List.forall_mem_cons.mp hbound
      refine ⟨?_, ?_⟩
      · rcases List.mem_cons.mp hmem with h | h
        · rw [h]
          exact List.mem_cons_self
        · exact List.mem_cons_of_mem x (List.mem_cons_of_mem y h)
      · exact List.forall_mem_cons.mpr
          ⟨hx', List.forall_mem_cons.mpr ⟨le_trans hle hx', hys'⟩⟩

/-! ## Bounds

Which doubles are finite, in terms of the order. This takes the format apart, as the largest
mantissa and exponent are facts about bits. -/

/-- The exponent and the mantissa of a finite double are bounded, and the mantissa is full unless
the exponent is the least. -/
theorem bounds_of_unpack {b : BitVec Format.binary64.numBits} {s : Sign} {m : ℕ} {e : ℤ}
    {hm : 0 < m} (h : UnpackedFloat.unpack Format.binary64 b = .finite s m e hm) :
    -1074 ≤ e ∧ e ≤ 971 ∧ m ≤ 9007199254740991 ∧ (e = -1074 ∨ 4503599627370496 ≤ m) := by
  have hmantissa := (@unpackMantissa Format.binary64 b).isLt
  have hexponent := (@unpackExponent Format.binary64 b).isLt
  have hbias : Format.binary64.exponentBias = 1023 := rfl
  -- the number that is finite is named, so that only the reading of the bits is taken apart
  generalize hfinite : UnpackedFloat.finite s m e hm = unpacked at h
  unfold UnpackedFloat.unpack at h
  dsimp only at h hmantissa hexponent
  by_cases hinfinite : unpackExponent b = -1#11
  · rw [if_pos hinfinite] at h
    split at h <;> subst h <;> cases hfinite
  rw [if_neg hinfinite] at h
  by_cases hexponentZero : unpackExponent b = 0#11
  · rw [if_pos hexponentZero] at h
    by_cases hmantissaZero : unpackMantissa b = 0#52
    · rw [dif_pos hmantissaZero] at h
      subst h
      cases hfinite
    · -- a subnormal number has the least exponent
      rw [dif_neg hmantissaZero] at h
      subst h
      cases hfinite
      rw [hexponentZero, hbias]
      exact ⟨by decide, by decide, by omega, .inl (by decide)⟩
  · rw [if_neg hexponentZero] at h
    subst h
    cases hfinite
    have hne : (@unpackExponent Format.binary64 b).toNat ≠ 2047 :=
      fun heq => hinfinite (BitVec.eq_of_toNat_eq heq)
    have hne' : (@unpackExponent Format.binary64 b).toNat ≠ 0 :=
      fun heq => hexponentZero (BitVec.eq_of_toNat_eq heq)
    have hlt := (1#1 ++ @unpackMantissa Format.binary64 b).isLt
    have hfull : 4503599627370496 ≤ (1#1 ++ @unpackMantissa Format.binary64 b).toNat := by
      rw [BitVec.toNat_append, Nat.shiftLeft_eq]
      exact Nat.left_le_or
    rw [hbias]
    exact ⟨by omega, by omega, by omega, .inr hfull⟩

theorem largest_eq : (Scalar.largest : Float) = .ofBits 0x7FEFFFFFFFFFFFFF := by decide +kernel

theorem place?_largest :
    place? Scalar.largest = some (toLex (1, toLex (971, 9007199254740991))) := by
  rw [largest_eq]
  rfl

theorem place?_neg_largest :
    place? (-Scalar.largest) = some (toLex (-1, toLex (-971, -9007199254740991))) := by
  rw [largest_eq]
  rfl

theorem within_largest {x : Float} (hx : Scalar.isFinite x = true) :
    -Scalar.largest ≤ x ∧ x ≤ Scalar.largest := by
  rw [le_iff, le_iff, place?_largest, place?_neg_largest]
  have hx : x.toModel.unpack.isFinite = true := hx
  have hunpack : x.toModel.unpack =
      UnpackedFloat.unpack Format.binary64 x.toModel.toBits.toBitVec := rfl
  -- an encoding that unpacks to a number keeps its exponent at 971 at most, and then its mantissa
  -- below 2 ^ 53
  rcases h : x.toModel.unpack with s | _ | s | ⟨_ | _, m, e, hm⟩
  · rw [h] at hx
    cases hx
  · rw [h] at hx
    cases hx
  · have hplace : place? x = some (toLex (0, toLex (0, 0))) := congrArg unpackedPlace? h
    simp [hplace, Prod.Lex.le_iff]
  · obtain ⟨-, he, hm, -⟩ := bounds_of_unpack (hunpack.symm.trans h)
    have hplace : place? x = some (toLex (-1, toLex (-e, -(m : ℤ)))) := congrArg unpackedPlace? h
    simp [hplace, Prod.Lex.le_iff]
    omega
  · obtain ⟨-, he, hm, -⟩ := bounds_of_unpack (hunpack.symm.trans h)
    have hplace : place? x = some (toLex (1, toLex (e, (m : ℤ)))) := congrArg unpackedPlace? h
    simp [hplace, Prod.Lex.le_iff]
    omega

theorem isFinite_of_within {x : Float} (hlow : -Scalar.largest ≤ x) (hhigh : x ≤ Scalar.largest) :
    Scalar.isFinite x = true := by
  rw [le_iff, place?_neg_largest] at hlow
  rw [le_iff, place?_largest] at hhigh
  show x.toModel.unpack.isFinite = true
  rcases h : x.toModel.unpack with (_ | _) | _ | s | ⟨s, m, e, hm⟩
  · have hplace : place? x = some (toLex (-2, toLex (0, 0))) := congrArg unpackedPlace? h
    simp [hplace, Prod.Lex.le_iff] at hlow
  · have hplace : place? x = some (toLex (2, toLex (0, 0))) := congrArg unpackedPlace? h
    simp [hplace, Prod.Lex.le_iff] at hhigh
  · have hplace : place? x = none := congrArg unpackedPlace? h
    simp [hplace] at hlow
  · rfl
  · rfl

theorem isNaN_of_isFinite {x : Float} (hx : Scalar.isFinite x = true) :
    Scalar.isNaN x = false := by
  obtain ⟨p, -, q, hq, -⟩ := le_iff.mp (within_largest hx).1
  exact isNaN_eq_false_iff.mpr ⟨q, hq⟩

theorem bounded_of_isFinite {x : Float} (hx : Scalar.isFinite x = true) : Scalar.bounded x = x := by
  obtain ⟨hlow, hhigh⟩ := within_largest hx
  unfold Scalar.bounded
  rw [isNaN_of_isFinite hx, if_neg Bool.false_ne_true, if_neg (not_lt_of_le hlow),
    if_neg (not_lt_of_le hhigh)]

theorem isFinite_largest : Scalar.isFinite (Scalar.largest : Float) = true ∧
    Scalar.isFinite (-Scalar.largest : Float) = true := by decide +kernel

theorem isFinite_bounded (x : Float) : Scalar.isFinite (Scalar.bounded x) = true := by
  unfold Scalar.bounded
  cases hnan : Scalar.isNaN x with
  | true =>
    rw [if_pos rfl]
    decide +kernel
  | false =>
    rw [if_neg Bool.false_ne_true]
    split
    · -- outside of the largest numbers it is one of them that comes out
      exact isFinite_largest.2
    · rename_i hlow
      split
      · exact isFinite_largest.1
      · rename_i hhigh
        obtain ⟨hlargest, hleast⟩ := isFinite_largest
        exact isFinite_of_within
          ((lt_or_le hnan (isNaN_of_isFinite hleast)).resolve_left hlow)
          ((lt_or_le (isNaN_of_isFinite hlargest) hnan).resolve_left hhigh)

/-! ## Arithmetic

How a result comes about, each by `rfl`. The modules on rounding start from these equations. -/

section arithmetic

variable (x y : Float)

theorem unpack_add : (x + y).toModel.unpack = UnpackedFloat.unpack Format.binary64
    (UnpackedFloat.pack Format.binary64
      (UnpackedFloat.add Format.binary64 x.toModel.unpack y.toModel.unpack)) := rfl

theorem unpack_sub : (x - y).toModel.unpack = UnpackedFloat.unpack Format.binary64
    (UnpackedFloat.pack Format.binary64
      (UnpackedFloat.sub Format.binary64 x.toModel.unpack y.toModel.unpack)) := rfl

theorem unpack_mul : (x * y).toModel.unpack = UnpackedFloat.unpack Format.binary64
    (UnpackedFloat.pack Format.binary64
      (UnpackedFloat.mul Format.binary64 x.toModel.unpack y.toModel.unpack)) := rfl

theorem unpack_div : (x / y).toModel.unpack = UnpackedFloat.unpack Format.binary64
    (UnpackedFloat.pack Format.binary64
      (UnpackedFloat.div Format.binary64 x.toModel.unpack y.toModel.unpack)) := rfl

end arithmetic

end MarketReplay.Double
