import MarketReplay.Performance.Drawdown
import MarketReplay.Performance.Returns
import MarketReplay.Performance.TradeStatistics
import MarketReplay.Replay.Record

/-!
# Metrics of a run

Return, risk and trade statistics of an equity curve and a trade log, with a risk-free rate of zero.
Of the points of the curve only the equity is read; the timestamps come in a list of their own, and
a list of another length than the curve makes every metric zero.

The metrics know nothing of the replay: any curve and any log can be measured, and most of what is
proved of them holds for any. Quotients and powers are held within the finite numbers before they
are reported, with one exception, the largest drawdown.

The counts of trades are natural numbers and the time from the first to the last timestamp is an
integer, both without bounds. A machine has 32 bits for the counts and 64 for the time. For the
trades of a log `CountsFit` says when its counters come to the same
(`MarketReplay.Proofs.Performance.Words`).
-/

set_option autoImplicit false

namespace MarketReplay

/-- The measures of one run. The five counts are counters of 32 bits in a machine and are read back
from documents as such; here they are natural numbers, and equal to a machine's counters for a log
that `CountsFit`. -/
structure Metrics (α : Type) where
  cumulativeReturn : α
  annualizedReturn : α
  periodsPerYear : α
  maxDrawdown : α
  volatility : α
  downsideDeviation : α
  sharpeRatio : α
  sortinoRatio : α
  calmarRatio : α
  totalTrades : Nat
  winningTrades : Nat
  losingTrades : Nat
  winRate : α
  profitLossRatio : α
  maxConsecutiveWins : Nat
  maxConsecutiveLosses : Nat
  /-- The mean time a position was held, in milliseconds. -/
  averageHolding : α
  tradesPerYear : α
deriving DecidableEq, Repr

namespace Metrics

variable {α : Type} [Scalar α]

/-- The metrics of what cannot be measured. They are all zero, which is also what an account that
never moved has. -/
def zero : Metrics α where
  cumulativeReturn := 0
  annualizedReturn := 0
  periodsPerYear := 0
  maxDrawdown := 0
  volatility := 0
  downsideDeviation := 0
  sharpeRatio := 0
  sortinoRatio := 0
  calmarRatio := 0
  totalTrades := 0
  winningTrades := 0
  losingTrades := 0
  winRate := 0
  profitLossRatio := 0
  maxConsecutiveWins := 0
  maxConsecutiveLosses := 0
  averageHolding := 0
  tradesPerYear := 0

/-- The mean holding time in days. -/
def averageHoldingDays (m : Metrics α) : α := m.averageHolding / (24 * 3600 * 1000)

/-- The number of trades in a year of the time from the first to the last timestamp; zero if this is
no time. The time is a difference without bounds, where a machine has 64 bits. -/
def yearlyTrades (closed : Nat) (first last : Int) : α :=
  let years := Scalar.ofInt (last - first) / yearMillis
  if 0 < years then Scalar.bounded (Scalar.ofNat closed / years) else 0

/-- The growth from the initial capital to the final equity; zero without capital, where there is
nothing to grow from. -/
def totalGrowth (initialCapital finalEquity : α) : α :=
  if 0 < initialCapital then finalEquity / initialCapital - 1 else 0

/-- The metrics of a curve that ends at `finalEquity` and of timestamps from `first` to `last`. The
ends are parameters because they only exist for a curve that has points; `analyze` finds them. -/
def ofCurve [RootPower α] (equity : List α) (finalEquity : α) (timestamps : List Int)
    (first last : Int) (trades : List (Trade α)) (initialCapital : α) : Metrics α :=
  let changes := returns equity
  let periods : α := MarketReplay.periodsPerYear timestamps
  -- a spread grows with the root of the time over which it is taken
  let annualizer := RootPower.sqrt periods
  let cumulative := totalGrowth initialCapital finalEquity
  let annualized := MarketReplay.annualizedReturn cumulative periods changes.length
  let worst := MarketReplay.maxDrawdown equity
  let volatility := Scalar.bounded (standardDeviation changes * annualizer)
  let downside := Scalar.bounded (MarketReplay.downsideDeviation changes * annualizer)
  let stats := TradeStatistics.ofTrades trades
  { cumulativeReturn := Scalar.bounded cumulative
    annualizedReturn := annualized
    periodsPerYear := Scalar.bounded periods
    maxDrawdown := worst
    volatility
    downsideDeviation := downside
    sharpeRatio := boundedRatio annualized volatility
    sortinoRatio := boundedRatio annualized downside
    calmarRatio := boundedRatio annualized worst
    totalTrades := stats.closed
    winningTrades := stats.winning
    losingTrades := stats.losing
    winRate := stats.winRate
    profitLossRatio := stats.profitLossRatio
    maxConsecutiveWins := stats.longestWins
    maxConsecutiveLosses := stats.longestLosses
    averageHolding := stats.averageHolding
    tradesPerYear := yearlyTrades stats.closed first last }

/-- The metrics of an equity curve, its timestamps and a trade log. Without points, or with
timestamps that do not belong to the curve, there is nothing to be measured, and no metric is made
up from half of it. -/
def analyze [RootPower α] (curve : List (EquityPoint α)) (timestamps : List Int)
    (trades : List (Trade α)) (initialCapital : α) : Metrics α :=
  let equity := curve.map EquityPoint.equity
  match equity.getLast?, timestamps.head?, timestamps.getLast? with
  | some finalEquity, some first, some last =>
    if equity.length = timestamps.length then
      ofCurve equity finalEquity timestamps first last trades initialCapital
    else zero
  | _, _, _ => zero

/-- The metrics of a run. The curve and the timestamps of a record have the same length always. -/
def ofRecord [RootPower α] (r : RunRecord α) : Metrics α :=
  analyze r.curve r.timestamps r.trades r.initialCapital

end Metrics

end MarketReplay
