import MarketReplay.Scalar

/-!
# Relative strength

The share of rises in recent price changes, from 0 to 100. Gains and losses are averaged apart: the
first `period` changes by their plain mean, added up term by term, and every later change by
Wilder's rule, where it replaces one part in `period` of the average. The first value comes after
`period` changes, that is, with price `period + 1`.

The state takes prices one at a time, so that a rule can carry it from bar to bar; the strengths of
a list are the answers of one state to its prices (`RelativeStrength.along`). What is proved of a
list is proved by following the state along it.
-/

set_option autoImplicit false

namespace MarketReplay

/-- What is known after some prices. Until `period` changes were seen the two averages are still
being added up, and are no averages yet. -/
structure RelativeStrength (α : Type) where
  period : Nat
  /-- The price before, once there is one. -/
  previous : Option α
  /-- How many changes were seen. -/
  changes : Nat
  averageGain : α
  averageLoss : α

namespace RelativeStrength

variable {α : Type} [Scalar α]

/-- The state before the first price. A period of zero counts as one. -/
def start (period : Nat) : RelativeStrength α where
  period := Nat.max period 1
  previous := none
  changes := 0
  averageGain := 0
  averageLoss := 0

/-- The state before the first price again, for the same period. It is a new state and keeps nothing
of the old one, so that what follows a reset does not depend on what came before. -/
def reset (s : RelativeStrength α) : RelativeStrength α := start s.period

/-- The strength that two averages stand for; 50 if nothing moved and 100 if nothing fell. Without
these two cases a quotient by zero would stand for them. -/
def strength (averageGain averageLoss : α) : α :=
  if averageLoss == 0 then
    if averageGain == 0 then 50 else 100
  else
    let ratio := averageGain / averageLoss
    100 - 100 / (1 + ratio)

/-- The state after one more change. A gain and a loss are both at least zero and one of them is
zero. The first `period` changes are divided before they are added, so that the sum is the mean when
the last of them is in. -/
def afterChange (s : RelativeStrength α) (delta : α) : RelativeStrength α :=
  let gain := Scalar.max 0 delta
  let loss := Scalar.max 0 (-delta)
  let period : α := Scalar.ofNat s.period
  if s.changes < s.period then
    { s with
      changes := s.changes + 1
      averageGain := s.averageGain + gain / period
      averageLoss := s.averageLoss + loss / period }
  else
    { s with
      changes := s.changes + 1
      averageGain := (s.averageGain * (period - 1) + gain) / period
      averageLoss := (s.averageLoss * (period - 1) + loss) / period }

/-- Takes the next price; the strength is there once enough changes were seen. The first price makes
no change, it is only remembered. -/
def update (s : RelativeStrength α) (price : α) : RelativeStrength α × Option α :=
  match s.previous with
  | none => ({ s with previous := some price }, none)
  | some before =>
    let s := ({ s with previous := some price }).afterChange (price - before)
    (s, if s.changes < s.period then none else some (strength s.averageGain s.averageLoss))

/-- The answers of a state to a list of prices. The indicator over a whole list is this from the
start, so what is proved of a price at a time holds of lists. -/
def along (s : RelativeStrength α) : List α → List (Option α)
  | [] => []
  | p :: rest =>
    let (s, answer) := s.update p
    answer :: along s rest

end RelativeStrength

/-- The relative strength along a list of prices. A period of zero has none; a state for it would
count it as one. -/
def relativeStrengths {α : Type} [Scalar α] (prices : List α) (period : Nat) : List (Option α) :=
  if period = 0 then prices.map fun _ => none
  else (RelativeStrength.start period).along prices

end MarketReplay
