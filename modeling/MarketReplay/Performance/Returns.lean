import MarketReplay.Cleaning.Interval
import MarketReplay.Scalar

/-!
# Returns and their spread

Returns from one point of an equity curve to the next, what they come to in a year, and how much
they scatter. Where a quantity has no meaning, because there are no points, the capital is gone or
the points have no spacing in time, a plain number stands for it.

What the numbers mean rests on the points being equally far apart, which is why a year is counted in
median intervals and not in the time the curve covers. The spreads are those of the whole
population, divided by the number of values.
-/

set_option autoImplicit false

namespace MarketReplay

variable {α : Type} [Scalar α]

/-- The relative changes from each value to the next; zero after a value that is not positive, from
which no change can be measured. There is one fewer than there are values. -/
def returns : List α → List α
  | [] => []
  | [_] => []
  | a :: b :: rest => (if 0 < a then b / a - 1 else 0) :: returns (b :: rest)

/-- The milliseconds of a year of 365.25 days. Markets without closing hours trade on all of
them. -/
def yearMillis : α := 365.25 * 24 * 3600 * 1000

/-- How many median intervals a year has; zero if no timestamp leads forwards. The median is not
moved by single gaps, as a mean would be. -/
def periodsPerYear (timestamps : List Int) : α :=
  match medianInterval? timestamps with
  | some median => if 0 < median then yearMillis / Scalar.ofInt median else 0
  | none => 0

/-- The square root of the mean square distance from the mean; zero for fewer than two values, of
which none is off the mean. -/
def standardDeviation [RootPower α] (values : List α) : α :=
  if values.length < 2 then 0
  else
    let n := Scalar.ofNat values.length
    let mean := Scalar.sum values / n
    RootPower.sqrt (Scalar.sum (values.map fun v => (v - mean) * (v - mean)) / n)

/-- The square root of the mean square of the negative values; zero if there are none. The mean is
over the negative values alone, and distances are taken from zero. -/
def downsideDeviation [RootPower α] (values : List α) : α :=
  let losses := values.filter fun r => decide (r < 0)
  if losses.isEmpty then 0
  else RootPower.sqrt (losses.foldl (fun total r => total + r * r) 0 / Scalar.ofNat losses.length)

/-- The yearly return that leads to the same growth as `cumulative` over a number of periods. Where
all is lost, or more than all, no power is taken: the return is then the loss of everything. -/
def annualizedReturn [RootPower α] (cumulative periodsPerYear : α) (periods : Nat) : α :=
  if periods = 0 ∨ periodsPerYear ≤ 0 then 0
  else
    let growth := 1 + cumulative
    if growth ≤ 0 then -1
    else Scalar.bounded (RootPower.pow growth (periodsPerYear / Scalar.ofNat periods) - 1)

/-- A quotient held within the finite numbers, and zero where the denominator is: a run without any
spread gets no ratio rather than an infinite one. -/
def boundedRatio (numerator denominator : α) : α :=
  if denominator == 0 then 0 else Scalar.bounded (numerator / denominator)

end MarketReplay
