import MarketReplay.Indicator.ExponentialMean

/-!
# Convergence and divergence of means

The difference of a fast and a slow exponential mean, the exponential mean of that difference, and
the difference of the two. All three lists run along the prices; an entry is missing where one of
its terms is.

The lists keep one entry per price, also where there is no value yet, so that entries of the three
that belong together stand at the same place. The mean of the differences has to skip the entries
that are missing at the start; that is what `exponentialMeansLate` is for.
-/

set_option autoImplicit false

namespace MarketReplay

/-- The three lists, one entry each per price. None is shorter than the prices, however long the
periods are. -/
structure Convergence (α : Type) where
  difference : List (Option α)
  signal : List (Option α)
  histogram : List (Option α)

variable {α : Type} [Scalar α]

/-- The difference of two values, if both are there. A place at which one series is still silent is
silent in the difference as well. -/
def difference? : Option α → Option α → Option α
  | some x, some y => some (x - y)
  | _, _ => none

/-- The difference of the means, its own mean over `signal` values, and what is between them. The
difference starts where the longer of the two periods is full, whichever it is: nothing asks the
fast one to be the shorter. -/
def convergence (prices : List α) (fast slow signal : Nat) : Convergence α :=
  let difference :=
    List.zipWith difference? (exponentialMeans prices fast) (exponentialMeans prices slow)
  let smoothed := exponentialMeansLate difference signal
  { difference
    signal := smoothed
    histogram := List.zipWith difference? difference smoothed }

end MarketReplay
