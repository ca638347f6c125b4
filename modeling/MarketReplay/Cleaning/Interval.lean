/-!
# Intervals between timestamps

The steps from one timestamp to the next, their median, and whether they keep to a given interval.
Steps that do not lead forwards are left out of the median: they come of bars out of order or of
bars repeated, and say nothing about how far apart the bars of a series are meant to be.

The integers have no bounds here. A machine computes with words of 64 bits, in which the difference
of two timestamps can leave the range, and so can the sum of the two steps in the middle. Timestamps
in milliseconds are far from that (words reach to the year 292 million), and `StepsFit` says exactly
when the answers are those of a machine (`MarketReplay.Proofs.Cleaning.Words`).
-/

set_option autoImplicit false

namespace MarketReplay

/-- The differences of neighbouring timestamps. They are differences of integers without bounds; a
machine that has 64 bits for them needs every one of them in that range (`StepsFit.step_mem`). -/
def steps : List Int → List Int
  | [] => []
  | [_] => []
  | a :: b :: rest => (b - a) :: steps (b :: rest)

/-- The middle of a sorted list; of two middle numbers the mean, rounded down. Steps that lead
forwards are positive, so that rounding towards zero would be the same. The sum of the two is taken
before it is halved: in 64 bits it has to fit there as well (`StepsFit.middle_mem`). -/
def middle? (sorted : List Int) : Option Int :=
  let mid := sorted.length / 2
  if sorted.length % 2 = 0 then
    match sorted[mid - 1]?, sorted[mid]? with
    | some low, some high => some ((low + high) / 2)
    | _, _ => none
  else sorted[mid]?

/-- The median of the forward steps, if there is one. A median and not a mean, because a few long
gaps in a series must not move what counts as its usual interval. -/
def medianInterval? (timestamps : List Int) : Option Int :=
  middle? (((steps timestamps).filter fun d => decide (0 < d)).mergeSort fun a b => decide (a ≤ b))

/-- Whether every step is within `tolerance` of `interval`. Steps backwards count here, other than
for the median: a series that goes back is not continuous. -/
def isContinuous (timestamps : List Int) (interval tolerance : Int) : Bool :=
  (steps timestamps).all fun d => decide (((d - interval).natAbs : Int) ≤ tolerance)

end MarketReplay
