import MarketReplay.Calendar.Instant
import MarketReplay.Cleaning.Series
import MarketReplay.Decimal.Fixed
import MarketReplay.Performance.Metrics
import MarketReplay.Sweep

/-!
# Reports as text

A report for reading: the lines of a summary of one run or of a sweep. Amounts are right-aligned in
columns and rounded to fixed places. Fractions are shown as percentages, and trades from the newest
one on; the full numbers are in the documents.
-/

set_option autoImplicit false

namespace MarketReplay.Report

open Calendar (minuteText)
open Decimal (fixed rightAligned)

def doubleLine : String := "================================================================"
def singleLine : String := "----------------------------------------------------------------"

/-- A number in a column of the given width. -/
def column (width places : Nat) (x : Float) : String := rightAligned width (fixed places false x)

def countColumn (width n : Nat) : String := rightAligned width (toString n)

/-- A heading between two lines. -/
def heading (title : String) : List String := [singleLine, "  " ++ title, singleLine]

def periodLines (timestamps : List Int) : List String :=
  match timestamps.head?, timestamps.getLast? with
  | some first, some last => ["  Period: " ++ minuteText first ++ " to " ++ minuteText last]
  | _, _ => []

def cleaningLine (r : CleaningReport) : String :=
  s!"  Cleaning: {r.inputBars} in, {r.dropped} dropped, {r.gaps} gaps, {r.suspicious} suspicious"

def capitalLines (r : RunRecord Float) (m : Metrics Float) : List String :=
  heading "CAPITAL" ++ [
    "  Initial Capital:  $" ++ column 12 2 r.initialCapital,
    "  Final Cash:       $" ++ column 12 2 r.finalCapital,
    "  Final Equity:     $" ++ column 12 2 r.finalEquity,
    "  Total Return:     " ++ column 12 2 (r.totalReturn * 100) ++ "%",
    "  Annualized:       " ++ column 12 2 (m.annualizedReturn * 100) ++ "%"]

def riskLines (m : Metrics Float) : List String :=
  heading "RISK METRICS" ++ [
    "  Volatility (Ann): " ++ column 12 2 (m.volatility * 100) ++ "%",
    "  Sharpe Ratio:     " ++ column 12 3 m.sharpeRatio,
    "  Sortino Ratio:    " ++ column 12 3 m.sortinoRatio,
    "  Max Drawdown:     " ++ column 12 2 (m.maxDrawdown * 100) ++ "%",
    "  Calmar Ratio:     " ++ column 12 3 m.calmarRatio]

def tradeStatisticsLines (m : Metrics Float) : List String :=
  heading "TRADE STATISTICS" ++ [
    "  Total Trades:     " ++ countColumn 12 m.totalTrades,
    "  Winning Trades:   " ++ countColumn 12 m.winningTrades,
    "  Losing Trades:    " ++ countColumn 12 m.losingTrades,
    "  Win Rate:         " ++ column 12 1 (m.winRate * 100) ++ "%",
    "  P/L Ratio:        " ++ column 12 3 m.profitLossRatio,
    "  Max Win Streak:   " ++ countColumn 12 m.maxConsecutiveWins,
    "  Max Loss Streak:  " ++ countColumn 12 m.maxConsecutiveLosses,
    "  Avg Holding:      " ++ column 12 2 m.averageHoldingDays ++ " days",
    "  Trades / Year:    " ++ column 12 1 m.tradesPerYear]

def tradeLine (t : Trade Float) : String :=
  let exit := match t.exitTimestamp with
    | some instant => minuteText instant
    | none => "open"
  "  " ++ minuteText t.entryTimestamp ++ " -> " ++ exit ++ " | " ++ fixed 6 false t.quantity
    ++ " @ " ++ fixed 2 false t.entryPrice ++ " | P&L: $" ++ fixed 2 true t.realizedPnl

/-- The last five trades, newest first. -/
def recentTradeLines (trades : List (Trade Float)) : List String :=
  if trades.isEmpty then []
  else
    ["", "  RECENT TRADES (last 5)", singleLine] ++ (trades.reverse.take 5).map tradeLine ++ [""]

/-- The report of one run. -/
def runLines (rule : String) (cleaning : CleaningReport) (r : RunRecord Float)
    (m : Metrics Float) : List String :=
  ["", doubleLine, "  BACKTEST REPORT - " ++ rule, doubleLine, ""]
    ++ periodLines r.timestamps
    ++ [s!"  Bars: {r.barsProcessed}", cleaningLine cleaning, ""]
    ++ capitalLines r m ++ [""]
    ++ riskLines m ++ [""]
    ++ tradeStatisticsLines m ++ ["", doubleLine]
    ++ recentTradeLines r.trades

def outcomeLine (o : SweepOutcome Float) : String :=
  "  " ++ countColumn 4 o.settings.fastPeriod ++ "  " ++ countColumn 4 o.settings.slowPeriod
    ++ "  " ++ column 8 2 (o.totalReturn * 100) ++ "  " ++ column 8 3 o.metrics.sharpeRatio
    ++ "  " ++ column 9 2 (o.metrics.maxDrawdown * 100) ++ "  " ++ countColumn 6 o.totalTrades

def bestLines : Option (SweepOutcome Float) → List String
  | some o => ["",
      s!"  Best by Sharpe: fast={o.settings.fastPeriod} slow={o.settings.slowPeriod} ("
        ++ fixed 3 false o.metrics.sharpeRatio ++ ")"]
  | none => []

/-- The report of a sweep. -/
def sweepLines (best : Option (SweepOutcome Float)) (outcomes : List (SweepOutcome Float)) :
    List String :=
  ["", doubleLine, s!"  PARAMETER SWEEP - {outcomes.length} combinations", doubleLine,
    "  fast  slow   return%    sharpe    max dd%  trades"]
    ++ outcomes.map outcomeLine ++ bestLines best ++ [""]

end MarketReplay.Report
