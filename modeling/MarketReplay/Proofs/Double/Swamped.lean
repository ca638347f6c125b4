import MarketReplay.Proofs.Double

/-!
# Doubles that an infinity has reached

`NaN` comes out of every sum, difference and quotient that it enters first, and a sum that positive
infinity has entered is infinite or `NaN` from then on (`Double.Swamped`). What is added or taken
away does not bring it back, **and taking the infinity away again leaves `NaN`**
(`Double.Swamped.isNaN_sub`).

This is why a sum that is carried along does not forget an infinite value when the value leaves its
window, whereas a sum taken anew would.
-/

set_option autoImplicit false

namespace MarketReplay.Double

open Float.Model Float.Model.UnpackedFloat

variable {x y : Float}

theorem unpack_pack_notANumber :
    UnpackedFloat.unpack Format.binary64 (UnpackedFloat.pack Format.binary64 .notANumber) =
      .notANumber := rfl

theorem unpack_pack_infinity :
    UnpackedFloat.unpack Format.binary64
        (UnpackedFloat.pack Format.binary64 (.infinity .positive)) =
      .infinity .positive := rfl

/-! ## Not a number

Which results are `NaN`, read off the cases of the operations. -/

theorem isNaN_iff : Scalar.isNaN x = true ↔ x.toModel.unpack = .notANumber := by
  -- only `NaN` has no place
  have hplace : place? x = none ↔ x.toModel.unpack = .notANumber := by
    unfold place?
    rcases x.toModel.unpack with (_ | _) | _ | (_ | _) | ⟨_ | _, m, e, hm⟩
    case notANumber => exact ⟨fun _ => rfl, fun _ => rfl⟩
    all_goals exact ⟨nofun, nofun⟩
  rw [← hplace, ← Bool.not_eq_false, isNaN_eq_false_iff, Option.eq_none_iff_forall_ne_some,
    not_exists]

theorem isNaN_add (hx : Scalar.isNaN x = true) (y : Float) : Scalar.isNaN (x + y) = true := by
  rw [isNaN_iff] at hx ⊢
  have hadd : UnpackedFloat.add Format.binary64 .notANumber y.toModel.unpack = .notANumber := by
    cases y.toModel.unpack <;> rfl
  rw [unpack_add, hx, hadd, unpack_pack_notANumber]

theorem isNaN_sub (hx : Scalar.isNaN x = true) (y : Float) : Scalar.isNaN (x - y) = true := by
  rw [isNaN_iff] at hx ⊢
  have hsub : UnpackedFloat.sub Format.binary64 .notANumber y.toModel.unpack = .notANumber := by
    cases y.toModel.unpack <;> rfl
  rw [unpack_sub, hx, hsub, unpack_pack_notANumber]

theorem isNaN_sub_of_isNaN (x : Float) (hy : Scalar.isNaN y = true) :
    Scalar.isNaN (x - y) = true := by
  rw [isNaN_iff] at hy ⊢
  have hsub : UnpackedFloat.sub Format.binary64 x.toModel.unpack .notANumber = .notANumber := by
    cases x.toModel.unpack <;> rfl
  rw [unpack_sub, hy, hsub, unpack_pack_notANumber]

theorem isNaN_div (hx : Scalar.isNaN x = true) (y : Float) : Scalar.isNaN (x / y) = true := by
  rw [isNaN_iff] at hx ⊢
  have hdiv : UnpackedFloat.div Format.binary64 .notANumber y.toModel.unpack = .notANumber := by
    cases y.toModel.unpack <;> rfl
  rw [unpack_div, hx, hdiv, unpack_pack_notANumber]

theorem not_lt_of_isNaN (hx : Scalar.isNaN x = true) : ¬y < x := by
  intro hlt
  rw [(isNaN_of_lt hlt).2] at hx
  cases hx

/-! ## Infinities

The two states that a carried sum can be in afterwards. They form an invariant of adding and taking
away, which is all that a rolling sum does. -/

/-- A number that is not finite and not below zero is positive infinity. -/
theorem unpack_of_infinite (hx : 0 ≤ x) (hinfinite : Scalar.isFinite x = false) :
    x.toModel.unpack = .infinity .positive := by
  have hfinite : x.toModel.unpack.isFinite = false := hinfinite
  obtain ⟨zero, hzero, place, hplace, hle⟩ := le_iff.mp hx
  unfold place? at hplace
  rcases hunpack : x.toModel.unpack with (_ | _) | _ | s | ⟨s, m, e, hm⟩
  · -- negative infinity has its place below zero
    rw [hunpack] at hplace
    cases hzero
    cases hplace
    exact absurd hle (by decide)
  · rfl
  · rw [hunpack] at hplace
    cases hplace
  · rw [hunpack] at hfinite
    cases hfinite
  · rw [hunpack] at hfinite
    cases hfinite

/-- Positive infinity, or `NaN`. Both are needed: adding a negative infinity to the first leads to
the second, and nothing leads back. -/
def Swamped (x : Float) : Prop :=
  x.toModel.unpack = .infinity .positive ∨ x.toModel.unpack = .notANumber

theorem swamped_of_unpack {u : UnpackedFloat}
    (hx : x.toModel.unpack =
      UnpackedFloat.unpack Format.binary64 (UnpackedFloat.pack Format.binary64 u))
    (hu : u = .infinity .positive ∨ u = .notANumber) : Swamped x := by
  rcases hu with rfl | rfl
  · exact .inl (hx.trans unpack_pack_infinity)
  · exact .inr (hx.trans unpack_pack_notANumber)

/-- An infinity swamps the sum that it enters. -/
theorem swamped_add_infinite (x : Float) (hy : y.toModel.unpack = .infinity .positive) :
    Swamped (x + y) := by
  refine swamped_of_unpack (unpack_add x y) ?_
  rw [hy]
  rcases x.toModel.unpack with (_ | _) | _ | _ | _
  · exact .inr rfl
  · exact .inl rfl
  · exact .inr rfl
  · exact .inl rfl
  · exact .inl rfl

namespace Swamped

theorem add (hx : Swamped x) (y : Float) : Swamped (x + y) := by
  rcases hx with hx | hx
  · refine swamped_of_unpack (unpack_add x y) ?_
    rw [hx]
    rcases y.toModel.unpack with (_ | _) | _ | _ | _
    · exact .inr rfl
    · exact .inl rfl
    · exact .inr rfl
    · exact .inl rfl
    · exact .inl rfl
  · exact .inr (isNaN_iff.mp (isNaN_add (isNaN_iff.mpr hx) y))

theorem sub (hx : Swamped x) (y : Float) : Swamped (x - y) := by
  rcases hx with hx | hx
  · refine swamped_of_unpack (unpack_sub x y) ?_
    rw [hx]
    rcases y.toModel.unpack with (_ | _) | _ | _ | _
    · exact .inl rfl
    · exact .inr rfl
    · exact .inr rfl
    · exact .inl rfl
    · exact .inl rfl
  · exact .inr (isNaN_iff.mp (isNaN_sub (isNaN_iff.mpr hx) y))

/-- **An infinity that is taken away again leaves `NaN`.** -/
theorem isNaN_sub (hx : Swamped x) (hy : y.toModel.unpack = .infinity .positive) :
    Scalar.isNaN (x - y) = true := by
  rcases hx with hx | hx
  · rw [isNaN_iff, unpack_sub, hx, hy]
    rfl
  · exact Double.isNaN_sub (isNaN_iff.mpr hx) y

theorem isNaN_div (hx : Swamped x) (hy : y.toModel.unpack = .infinity .positive) :
    Scalar.isNaN (x / y) = true := by
  rcases hx with hx | hx
  · rw [isNaN_iff, unpack_div, hx, hy]
    rfl
  · exact Double.isNaN_div (isNaN_iff.mpr hx) y

end Swamped

end MarketReplay.Double
