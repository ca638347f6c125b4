import MarketReplay.Cleaning.Series
import MarketReplay.Performance.Metrics
import MarketReplay.Records.Market
import MarketReplay.Records.Settings
import MarketReplay.Sweep

/-!
# Results as JSON records

The records of a run and its metrics can be read back; reports of cleaning and summaries of sweeps
are only written. Counts of trades are read as numbers of 32 bits and the number of bars as one of
64, although all of them are natural numbers once they are read.
-/

set_option autoImplicit false

namespace MarketReplay

open Json (Fields fields? ofScalar scalar? int64? nat64? nat32? bool? list?)

variable {α : Type} [Scalar α]

def EquityPoint.toJson (p : EquityPoint α) : Json α :=
  .object [
    ("timestamp", .int p.timestamp),
    ("equity", ofScalar p.equity),
    ("drawdown_fraction", ofScalar p.drawdown)]

def EquityPoint.ofJson? (j : Json α) : Option (EquityPoint α) := do
  let f ← fields? 3 j
  let timestamp ← f.required 0 "timestamp" int64?
  let equity ← f.required 1 "equity" scalar?
  let drawdown ← f.required 2 "drawdown_fraction" scalar?
  return { timestamp, equity, drawdown }

def Metrics.toJson (m : Metrics α) : Json α :=
  .object [
    ("cumulative_return", ofScalar m.cumulativeReturn),
    ("annualized_return", ofScalar m.annualizedReturn),
    ("periods_per_year", ofScalar m.periodsPerYear),
    ("max_drawdown", ofScalar m.maxDrawdown),
    ("volatility", ofScalar m.volatility),
    ("downside_deviation", ofScalar m.downsideDeviation),
    ("sharpe_ratio", ofScalar m.sharpeRatio),
    ("sortino_ratio", ofScalar m.sortinoRatio),
    ("calmar_ratio", ofScalar m.calmarRatio),
    ("total_trades", Json.ofNat m.totalTrades),
    ("winning_trades", Json.ofNat m.winningTrades),
    ("losing_trades", Json.ofNat m.losingTrades),
    ("win_rate", ofScalar m.winRate),
    ("profit_loss_ratio", ofScalar m.profitLossRatio),
    ("max_consecutive_wins", Json.ofNat m.maxConsecutiveWins),
    ("max_consecutive_losses", Json.ofNat m.maxConsecutiveLosses),
    ("avg_holding_period", ofScalar m.averageHolding),
    ("trade_frequency_per_year", ofScalar m.tradesPerYear)]

def Metrics.ofJson? (j : Json α) : Option (Metrics α) := do
  let f ← fields? 18 j
  let cumulativeReturn ← f.required 0 "cumulative_return" scalar?
  let annualizedReturn ← f.required 1 "annualized_return" scalar?
  let periodsPerYear ← f.required 2 "periods_per_year" scalar?
  let maxDrawdown ← f.required 3 "max_drawdown" scalar?
  let volatility ← f.required 4 "volatility" scalar?
  let downsideDeviation ← f.required 5 "downside_deviation" scalar?
  let sharpeRatio ← f.required 6 "sharpe_ratio" scalar?
  let sortinoRatio ← f.required 7 "sortino_ratio" scalar?
  let calmarRatio ← f.required 8 "calmar_ratio" scalar?
  let totalTrades ← f.required 9 "total_trades" nat32?
  let winningTrades ← f.required 10 "winning_trades" nat32?
  let losingTrades ← f.required 11 "losing_trades" nat32?
  let winRate ← f.required 12 "win_rate" scalar?
  let profitLossRatio ← f.required 13 "profit_loss_ratio" scalar?
  let maxConsecutiveWins ← f.required 14 "max_consecutive_wins" nat32?
  let maxConsecutiveLosses ← f.required 15 "max_consecutive_losses" nat32?
  let averageHolding ← f.required 16 "avg_holding_period" scalar?
  let tradesPerYear ← f.required 17 "trade_frequency_per_year" scalar?
  return {
    cumulativeReturn, annualizedReturn, periodsPerYear, maxDrawdown, volatility
    downsideDeviation, sharpeRatio, sortinoRatio, calmarRatio, totalTrades, winningTrades
    losingTrades, winRate, profitLossRatio, maxConsecutiveWins, maxConsecutiveLosses
    averageHolding, tradesPerYear }

def RunRecord.toJson (r : RunRecord α) : Json α :=
  .object [
    ("initial_capital", ofScalar r.initialCapital),
    ("final_capital", ofScalar r.finalCapital),
    ("final_equity", ofScalar r.finalEquity),
    ("total_return", ofScalar r.totalReturn),
    ("total_trades", Json.ofNat r.totalTrades),
    ("winning_trades", Json.ofNat r.winningTrades),
    ("losing_trades", Json.ofNat r.losingTrades),
    ("trades", .list (r.trades.map Trade.toJson)),
    ("equity_curve", .list (r.curve.map EquityPoint.toJson)),
    ("timestamps", .list (r.timestamps.map Json.int)),
    ("bars_processed", Json.ofNat r.barsProcessed),
    ("completed", .bool r.completed)]

def RunRecord.ofJson? (j : Json α) : Option (RunRecord α) := do
  let f ← fields? 12 j
  let initialCapital ← f.required 0 "initial_capital" scalar?
  let finalCapital ← f.required 1 "final_capital" scalar?
  let finalEquity ← f.required 2 "final_equity" scalar?
  let totalReturn ← f.required 3 "total_return" scalar?
  let totalTrades ← f.required 4 "total_trades" nat32?
  let winningTrades ← f.required 5 "winning_trades" nat32?
  let losingTrades ← f.required 6 "losing_trades" nat32?
  let trades ← f.required 7 "trades" (list? Trade.ofJson?)
  let curve ← f.required 8 "equity_curve" (list? EquityPoint.ofJson?)
  let timestamps ← f.required 9 "timestamps" (list? int64?)
  let barsProcessed ← f.required 10 "bars_processed" nat64?
  let completed ← f.required 11 "completed" bool?
  return {
    initialCapital, finalCapital, finalEquity, totalReturn, totalTrades, winningTrades
    losingTrades, trades, curve, timestamps, barsProcessed, completed }

def CleaningReport.toJson (r : CleaningReport) : Json α :=
  .object [
    ("input_bars", Json.ofNat r.inputBars),
    ("output_bars", Json.ofNat r.outputBars),
    ("duplicates", Json.ofNat r.duplicates),
    ("invalid_ohlc", Json.ofNat r.invalidRange),
    ("negative_volume", Json.ofNat r.negativeVolume),
    ("invalid_price", Json.ofNat r.invalidPrice),
    ("gaps", Json.ofNat r.gaps),
    ("suspicious", Json.ofNat r.suspicious)]

def SweepOutcome.toJson (o : SweepOutcome α) : Json α :=
  .object [
    ("strategy", o.settings.toJson),
    ("final_equity", ofScalar o.finalEquity),
    ("total_return", ofScalar o.totalReturn),
    ("total_trades", Json.ofNat o.totalTrades),
    ("metrics", o.metrics.toJson)]

end MarketReplay
