import MarketReplay.Performance.Outcome

/-!
# Statistics of closed trades

Counts, streaks and averages over the closed trades of a log, in one pass. A streak of wins is ended
by a loss and a streak of losses by a win; a trade that is neither leaves both as they are.

The pass is a fold of `Tally.add` over the closed trades, and what is proved of the statistics is an
invariant of it: each field of a tally is a function of the trades seen so far.

The counters are natural numbers. A machine counts in 32 bits, and has 64 for the time that a trade
was held; for a log that `CountsFit` into these it comes to the same statistics
(`TradeStatistics.ofTradesInWords_eq`, in `MarketReplay.Proofs.Performance.Words`), and a log of
more than four billion trades is the only other kind as far as the counters go.
-/

set_option autoImplicit false

namespace MarketReplay

/-- What is told of the closed trades of a log. The five counts have no bounds here and 32 bits in a
machine. -/
structure TradeStatistics (α : Type) where
  closed : Nat
  winning : Nat
  losing : Nat
  winRate : α
  profitLossRatio : α
  longestWins : Nat
  longestLosses : Nat
  /-- The mean time from entry to exit in milliseconds. -/
  averageHolding : α
deriving DecidableEq, Repr

namespace TradeStatistics

variable {α : Type} [Scalar α]

/-- What has been counted and added up so far. The two streaks are those that are still running, and
the longest ones are kept beside them. Counts are natural numbers, where a machine's counters have
32 bits: none of them is above the number of trades seen, so that they agree for fewer than 2^32
trades. -/
structure Tally (α : Type) where
  closed : Nat
  winning : Nat
  losing : Nat
  winStreak : Nat
  lossStreak : Nat
  longestWins : Nat
  longestLosses : Nat
  totalWins : α
  totalLosses : α
  totalHolding : α

def Tally.zero : Tally α := ⟨0, 0, 0, 0, 0, 0, 0, 0, 0, 0⟩

/-- Counts the outcome of a trade. The longest streak is compared with the running one as it grows,
which comes to the same as comparing after every trade. Losses are added up by their size. -/
def Tally.outcome (t : Tally α) (pnl : α) : Tally α :=
  if isWin pnl then
    { t with
      winning := t.winning + 1
      totalWins := t.totalWins + pnl
      winStreak := t.winStreak + 1
      lossStreak := 0
      longestWins := Nat.max t.longestWins (t.winStreak + 1) }
  else if isLoss pnl then
    { t with
      losing := t.losing + 1
      totalLosses := t.totalLosses + Scalar.abs pnl
      lossStreak := t.lossStreak + 1
      winStreak := 0
      longestLosses := Nat.max t.longestLosses (t.lossStreak + 1) }
  else t

/-- Counts a closed trade. The time it was held is turned into a number of the scalar before it is
added: the total is a float where the prices are. -/
def Tally.add (t : Tally α) (trade : Trade α) : Tally α :=
  let held := Scalar.ofInt (trade.holdingMillis?.getD 0)
  { t with
    closed := t.closed + 1
    totalHolding := t.totalHolding + held }.outcome trade.realizedPnl

/-- The ratio reported when there are wins and no losses. It is the largest finite number, so that
the report holds finite numbers only and no log ranks above such a one. -/
def unboundedRatio : α := Scalar.largest

/-- The mean win over the mean loss; zero without wins, and the largest number there is with wins
alone. -/
def Tally.profitLossRatio (t : Tally α) : α :=
  if t.winning = 0 then 0
  else if t.losing = 0 then unboundedRatio
  else
    Scalar.bounded
      ((t.totalWins / Scalar.ofNat t.winning) / (t.totalLosses / Scalar.ofNat t.losing))

/-- The statistics of a finished tally. A log without closed trades has only zeros, as there is
nothing to divide by. -/
def Tally.statistics (t : Tally α) : TradeStatistics α where
  closed := t.closed
  winning := t.winning
  losing := t.losing
  winRate := if t.closed = 0 then 0 else Scalar.ofNat t.winning / Scalar.ofNat t.closed
  profitLossRatio := t.profitLossRatio
  longestWins := t.longestWins
  longestLosses := t.longestLosses
  averageHolding := if t.closed = 0 then 0 else t.totalHolding / Scalar.ofNat t.closed

/-- The statistics of a log; open trades do not count, and are left out before the pass begins. A
log is passed once, with all counters in hand. -/
def ofTrades (trades : List (Trade α)) : TradeStatistics α :=
  ((trades.filter Trade.isClosed).foldl Tally.add Tally.zero).statistics

end TradeStatistics

end MarketReplay
