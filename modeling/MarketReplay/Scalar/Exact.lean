import MarketReplay.Scalar
import MarketReplay.Width

/-!
# Exact arithmetic

The rationals as scalars. Every rational is finite and compares with every other, so the guards
against `NaN` and infinities never fire; the two bounds of the 64-bit format keep their exact
values, because programs mention them.

This instance runs, other than the one that a field gets in the proofs (`Scalar.ofField`): replays
on it can be evaluated, and the fixed runs that accompany a theorem are worked out on it. Whole
numbers have no bounds either, so that a floor is not held within 64 bits.
-/

set_option autoImplicit false

namespace MarketReplay

instance : Scalar Rat where
  decLt := inferInstance
  decLe := inferInstance
  ofInt := fun n => (n : Rat)
  isFinite := fun _ => true
  floorToInt := Rat.floor
  largest := (((twoTo 1024 : Int) - twoTo 970 : Int) : Rat)
  smallestNormal := mkRat 1 (twoTo 1022)

end MarketReplay
