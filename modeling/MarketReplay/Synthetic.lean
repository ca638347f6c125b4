import MarketReplay.Market.Bar
import MarketReplay.Random.Stream
import MarketReplay.Room

/-!
# Made-up series

A random walk in the shape of a price series, for trying things out. A bar opens at the price where
the bar before it closed, moves by about a hundredth, and reaches a little beyond both ends; volume
is heavier on larger moves. The draws come from a sampler, in a fixed order for each bar, so a
series is determined by the sampler's state.

There is no series when a draw has no range, which happens for a starting price that is not a
positive, finite number of some size. Nor is there one of more bars than a table has room for.

The sampler is a parameter. That a series is sound needs only draws within the ranges they were
asked for, and is proved of every such sampler over exact numbers; which stream of words the draws
of the program come from is the other module's business (`MarketReplay.Random.Stream`).
-/

set_option autoImplicit false

namespace MarketReplay

variable {α γ : Type} [Scalar α]

/-- The timestamp of the first bar, 2024-01-01T00:00:00Z. -/
def syntheticStart : Int := 1704067200000

/-- The bar at a timestamp that opens at `price`, and the state of the sampler after its draws.
There is none if one of the draws has no range. The closing price is kept above zero, and the low
above half of the lower end. -/
def syntheticBar (sampler : Sampler α γ) (timestamp : Int) (price : α) (g : γ) :
    Option (Bar α × γ) := do
  let (swing, g) ← sampler.uniform g (-1) 1
  let move := 0.0001 + 0.01 * swing
  let closing := Scalar.max (price * (1 + move)) Scalar.smallestNormal
  -- the order of the draws is part of what a seed stands for
  let (spread, g) ← sampler.uniform g 0.002 0.01
  let reach := price * spread
  let top := Scalar.max price closing
  let bottom := Scalar.min price closing
  let (above, g) ← sampler.uniform g 0 reach
  let (below, g) ← sampler.uniform g 0 reach
  let (factor, g) ← sampler.uniform g 0.8 1.2
  let volume := 1000 * (1 + Scalar.abs move * 10) * factor
  let (tradeCount, g) := sampler.count g 50 500
  return (
    { timestamp
      opening := price
      high := top + above
      low := Scalar.max (bottom - below) (bottom * 0.5)
      closing
      volume
      quoteVolume := volume * (price + closing) / 2
      tradeCount
      quality := .good }, g)

/-- The bars that follow the bars in `made`, which are kept newest first. The recursion is on the
number of bars still to come, and each opens where the one before closed. -/
def syntheticFrom (sampler : Sampler α γ) (interval : Int) (made : List (Bar α)) (timestamp : Int)
    (price : α) (g : γ) : Nat → Option (List (Bar α))
  | 0 => some made.reverse
  | n + 1 =>
    match syntheticBar sampler timestamp price g with
    | none => none
    | some (bar, g) =>
      syntheticFrom sampler interval (bar :: made) (timestamp + interval) bar.closing g n

/-- A series of `n` bars that starts at a price. -/
def syntheticBars (sampler : Sampler α γ) (n : Nat) (price : α) (interval : Int) (g : γ) :
    Option (List (Bar α)) :=
  syntheticFrom sampler interval [] syntheticStart price g n

/-- The bytes of a bar in a table: eight fields of eight bytes, and a mark. -/
def barBytes : Nat := 72

/-- The room for a series of `n` bars, which is laid out before the first draw. -/
def seriesRoom (n : Nat) : Room := Room.forTable n barBytes

/-- The series of a seed. A series that there is no room for is not begun, so that nothing is drawn
for it. -/
def seededBars (n : Nat) (price : Float) (seed : Nat) (interval : Int) :
    Option (List (Bar Float)) :=
  if seriesRoom n = .enough then
    syntheticBars RandomStream.sampler n price interval (RandomStream.ofSeed (UInt64.ofNat seed))
  else none

end MarketReplay
