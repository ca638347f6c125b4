import MarketReplay.Market.Trade
import MarketReplay.Scalar

/-!
# Wins and losses

A closed trade is a win or a loss if it made or lost more than a hair; between the two it is
neither. The threshold is absolute, in units of money: a trade that breaks even comes out a few
roundings away from zero, and must not be counted by the sign they happen to have. The replay and
the metrics count with these two functions, so that their counts cannot differ.
-/

set_option autoImplicit false

namespace MarketReplay

variable {α : Type} [Scalar α]

/-- Profits and losses up to this size are neither. It is far below any amount that matters, and
meant to be above what rounding leaves of a trade that came out even. -/
def pnlThreshold : α := 1e-8

/-- Whether a profit or loss is a profit worth the name. A `NaN` is none. -/
def isWin (pnl : α) : Bool := decide (pnlThreshold < pnl)

/-- Whether a profit or loss is a loss worth the name. A `NaN` is none either, and so counts as a
trade without an outcome. -/
def isLoss (pnl : α) : Bool := decide (pnl < -pnlThreshold)

end MarketReplay
