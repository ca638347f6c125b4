import Mathlib.Algebra.Order.Field.Rat
import Mathlib.Algebra.Order.Group.Unbundled.Abs
import MarketReplay.Scalar.Exact

/-!
# The rationals as scalars

What the operations of `Scalar` that look at the order come to over the rationals, where no number
differs from itself. The definitions are written for doubles, with a case for `NaN` wherever one can
come in. Over the rationals that case never occurs, and what is left are the operations of an
ordered field, with all that is known about them.
-/

set_option autoImplicit false

namespace MarketReplay

@[simp] theorem isNaN_rat (x : ℚ) : Scalar.isNaN x = false := by simp [Scalar.isNaN]

@[simp] theorem max_rat (x y : ℚ) : Scalar.max x y = max x y := by
  rw [Scalar.max, isNaN_rat, max_def_lt]
  rfl

@[simp] theorem min_rat (x y : ℚ) : Scalar.min x y = min x y := by
  rw [Scalar.min, isNaN_rat, min_comm, min_def_lt]
  rfl

@[simp] theorem abs_rat (x : ℚ) : Scalar.abs x = |x| := by
  unfold Scalar.abs
  split
  · rename_i hneg
    exact (abs_of_neg hneg).symm
  · rename_i hneg
    exact (abs_of_nonneg (not_lt.mp hneg)).symm

/-- Without rounding a sum does not depend on where it starts. -/
theorem sum_rat (values : List ℚ) : Scalar.sum values = values.sum := by
  cases values with
  | nil => rfl
  | cons x rest =>
    calc rest.foldl (· + ·) x = rest.foldl (· + ·) (x + 0) := by rw [add_zero]
      _ = x + rest.foldl (· + ·) 0 := List.foldl_assoc
      _ = (x :: rest).sum := by rw [← List.sum_eq_foldl, List.sum_cons]

theorem bounded_rat (x : ℚ) :
    Scalar.bounded x = max (-Scalar.largest) (min x Scalar.largest) := by
  have hlargest : (0 : ℚ) ≤ Scalar.largest := by decide +kernel
  unfold Scalar.bounded
  rw [isNaN_rat, if_neg Bool.false_ne_true]
  split
  · rename_i hlow
    rw [max_eq_left ((min_le_left ..).trans (le_of_lt hlow))]
  · rename_i hlow
    split
    · rename_i hhigh
      rw [min_eq_right (le_of_lt hhigh), max_eq_right (neg_le_self hlargest)]
    · rename_i hhigh
      rw [min_eq_left (not_lt.mp hhigh), max_eq_right (not_lt.mp hlow)]

/-- Functions that stand for roots and powers, of which the rationals have none. -/
@[reducible] def RootPower.standIns : RootPower ℚ where
  sqrt x := x / 2
  pow x y := x * y

end MarketReplay
