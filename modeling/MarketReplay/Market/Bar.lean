import MarketReplay.Calendar.Instant
import MarketReplay.Scalar

/-!
# Bars

One bar sums up the trading of an interval: the first, highest, lowest and last price and the
volume. A series of bars is what everything else consumes. Timestamps are milliseconds since 1970
and name the start of the interval.

A bar can hold anything, also prices that no trading gives, because this is how they come out of
files. Whether a bar can be at all is asked by `hasValidRange` and `hasPositivePrices`, and cleaning
is where the answer has consequences.
-/

set_option autoImplicit false

namespace MarketReplay

/-- What cleaning found out about a bar. It is carried along with the bar and written out again, and
nothing but a reader of the series acts on it. -/
inductive Quality where
  | good
  /-- A price jump or volume spike against recent history. -/
  | suspicious
  /-- The interval since the bar before is too long. -/
  | gap
deriving DecidableEq, Repr

/-- The trading of one interval. Of the fields a replay reads only the timestamp and the closing
price, and cleaning the prices and the volume besides; the volume in the quote currency and the
number of trades are carried along. The timestamp is an integer and the number of trades a natural
number, both without bounds: what reads a bar from a text keeps them within 64 bits. -/
structure Bar (α : Type) where
  timestamp : Int
  opening : α
  high : α
  low : α
  closing : α
  volume : α
  quoteVolume : α
  tradeCount : Nat
  quality : Quality
deriving DecidableEq, Repr

namespace Bar

variable {α : Type} [Scalar α]

/-- A good bar of which only prices and volume are known. The rest has the values that a reader
gives to a column that is absent. -/
def ofPrices (timestamp : Int) (opening high low closing volume : α) : Bar α :=
  { timestamp, opening, high, low, closing, volume
    quoteVolume := 0
    tradeCount := 0
    quality := .good }

/-- No price of the interval lies below its low or above its high. The minimum and the maximum pass
over `NaN`, so an opening or a closing price that is `NaN` alone goes by here; the test of the
prices finds it. -/
def hasValidRange (b : Bar α) : Bool :=
  decide (b.low ≤ Scalar.min b.opening b.closing)
    && decide (Scalar.max b.opening b.closing ≤ b.high)

/-- All four prices are finite and above zero. `NaN` is not finite, so this test is the one that
finds it. -/
def hasPositivePrices (b : Bar α) : Bool :=
  [b.opening, b.high, b.low, b.closing].all fun p => Scalar.isFinite p && decide (0 < p)

end Bar

namespace Quality

def name : Quality → String
  | good => "good"
  | suspicious => "suspicious"
  | gap => "gap"

def all : List Quality := [good, suspicious, gap]

def ofName? (name : String) : Option Quality := all.find? fun q => q.name == name

end Quality

end MarketReplay
