import MarketReplay.Market.Trade
import MarketReplay.Scalar

/-!
# The record of a run

What a replay leaves behind: the equity at every bar it processed, the trades, and the counts and
totals that follow from them. The record stands on its own. It holds no settings but the capital and
no bars but their timestamps, and whoever measures a run reads nothing else.

Some fields could be worked out from others, such as the counts from the trades. They are kept
because the record is written out as a document; that they agree is proved of every run.
-/

set_option autoImplicit false

namespace MarketReplay

/-- What the account was worth at the close of a bar, after what was done there, and how far that
lies below the highest worth so far. -/
structure EquityPoint (α : Type) where
  timestamp : Int
  equity : α
  drawdown : α
deriving DecidableEq, Repr

/-- The outcome of a run. The totals are those at the last bar processed, and those of the start
where none was. Counts are natural numbers. -/
structure RunRecord (α : Type) where
  initialCapital : α
  finalCapital : α
  finalEquity : α
  totalReturn : α
  totalTrades : Nat
  winningTrades : Nat
  losingTrades : Nat
  trades : List (Trade α)
  curve : List (EquityPoint α)
  timestamps : List Int
  barsProcessed : Nat
  /-- Whether the last bar was reached. -/
  completed : Bool
deriving DecidableEq, Repr

namespace RunRecord

variable {α : Type}

/-- The trades that have an exit, in the order of time. -/
def closedTrades (r : RunRecord α) : List (Trade α) := r.trades.filter Trade.isClosed

/-- The trade that is still open at the end. Only the last can be, so the others are not looked
at. -/
def openTrade? (r : RunRecord α) : Option (Trade α) :=
  match r.trades.getLast? with
  | some t => if t.isClosed then none else some t
  | none => none

def equityValues (r : RunRecord α) : List α := r.curve.map EquityPoint.equity

end RunRecord

end MarketReplay
