import MarketReplay.Main
import MarketReplay.Proofs.Cleaning.Incremental
import MarketReplay.Proofs.Replay.Prefix
import MarketReplay.Proofs.Replay.Record
import MarketReplay.Proofs.Replay.Solvency
import MarketReplay.Proofs.Strategy.Crossing
import MarketReplay.Proofs.Replay.Costs
import MarketReplay.Proofs.Replay.Reuse
import MarketReplay.Proofs.Strategy.PriceUnit
import MarketReplay.Proofs.Replay.Units
import MarketReplay.Proofs.Sweep.Workers
import MarketReplay.Proofs.Performance.Agreement
import MarketReplay.Proofs.Records.RoundTrip
import MarketReplay.Proofs.Loading.Formats
import MarketReplay.Proofs.Book.Excess
import MarketReplay.Proofs.Cleaning.Arrival
import MarketReplay.Proofs.Synthetic.Series
import MarketReplay.Proofs.Cleaning.Report
import MarketReplay.Proofs.Cleaning.Spikes
import MarketReplay.Proofs.Cleaning.Forgetting
import MarketReplay.Proofs.Indicator.Wilder
import MarketReplay.Proofs.Strategy.Reversal
import MarketReplay.Proofs.Replay.Trend
import MarketReplay.Proofs.Sweep.Best
import MarketReplay.Proofs.Performance.Unitless
import MarketReplay.Proofs.Performance.TradeStatistics
import MarketReplay.Proofs.Performance.Finite
import MarketReplay.Proofs.Indicator.Convergence
import MarketReplay.Proofs.Calendar.Spelling
import MarketReplay.Proofs.Loading.SpareColumns
import MarketReplay.Proofs.Loading.Documents
import MarketReplay.Proofs.Indicator.WindowCalls
