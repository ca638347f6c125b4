import MarketReplay.Scalar

/-!
# Exponential means

A mean that forgets: each new value enters with weight `2 / (period + 1)` and everything before it
keeps the rest. The first mean is the plain mean of the first `period` values, so the list of means
has no entry before that place.

The means along a list have the length of the list, and those before the first are missing. A value
never affects a mean before it, and the list of means of a longer list begins with that of a
shorter.
-/

set_option autoImplicit false

namespace MarketReplay

variable {α : Type} [Scalar α]

/-- The weight of a new value. It is one for a period of one, and then every mean is the value
itself. -/
def smoothing (period : Nat) : α := 2 / (Scalar.ofNat period + 1)

/-- The means after `current` along further values. Every value has one, since the window that the
first mean had to wait for is behind it. -/
def exponentialTail (alpha current : α) : List α → List (Option α)
  | [] => []
  | v :: rest =>
    let next := alpha * v + (1 - alpha) * current
    some next :: exponentialTail alpha next rest

/-- The exponential means along a list, one entry per value. A period of zero has none, and neither
has a list that is shorter than the period. -/
def exponentialMeans (values : List α) (period : Nat) : List (Option α) :=
  if period = 0 ∨ values.length < period then values.map fun _ => none
  else
    let seed := Scalar.sum (values.take period) / Scalar.ofNat period
    List.replicate (period - 1) none
      ++ some seed :: exponentialTail (smoothing period) seed (values.drop period)

/-- The exponential means of a list that starts late: the places without a value at its start stay
without a mean, and the values after them are averaged up to the next place without one. Behind that
place nothing has a mean any more; the lists that this is used on have no such place. -/
def exponentialMeansLate (values : List (Option α)) (period : Nat) : List (Option α) :=
  let late := values.takeWhile Option.isNone
  let dense := ((values.drop late.length).takeWhile Option.isSome).filterMap id
  List.replicate late.length none ++ exponentialMeans dense period
    ++ List.replicate (values.length - late.length - dense.length) none

end MarketReplay
