import MarketReplay.Scalar

/-!
# Drawdown

How far the equity stands below its highest value so far, as a fraction of that value.

The same function of a peak and an equity is used in two places: a replay records the drawdown at
each bar as it goes, and the metrics find the drawdowns of a finished curve. Both start below every
number and raise the peak before they compare, and that the two lists agree is proved, not assumed.
-/

set_option autoImplicit false

namespace MarketReplay

variable {α : Type} [Scalar α]

/-- The fraction of a peak that is lost; zero above the peak, and for a peak that is not positive.
Under a positive peak the fraction can pass one, when the equity falls below zero. -/
def drawdown (peak equity : α) : α :=
  if 0 < peak then Scalar.max 0 ((peak - equity) / peak) else 0

/-- The drawdowns along a curve of equity after a given peak. Each value raises the peak before its
own drawdown is taken, so that a new height is no loss. -/
def drawdownsAfter (peak : α) : List α → List α
  | [] => []
  | equity :: rest =>
    let peak := Scalar.max peak equity
    drawdown peak equity :: drawdownsAfter peak rest

/-- The peak before anything was seen. It is finite and below every other finite number, so that the
first equity takes its place; only an equity of minus infinity does not. -/
def lowestPeak : α := -Scalar.largest

/-- The drawdowns along a whole curve of equity. The peak before it is the lowest one there is, and
the first number becomes the peak whatever it is. -/
def drawdowns (equity : List α) : List α := drawdownsAfter lowestPeak equity

/-- The largest drawdown of a curve, and zero for a curve without points. It is not held within the
finite numbers, other than the rest of the metrics. -/
def maxDrawdown (equity : List α) : α := (drawdowns equity).foldl Scalar.max 0

end MarketReplay
