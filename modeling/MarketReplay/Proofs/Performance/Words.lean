import MarketReplay.Performance.TradeStatistics
import MarketReplay.Width

/-!
# Statistics in machine words

The tally of a log counts without bounds, and the time a position was held is a difference of
integers without bounds. A machine counts in words of 32 bits and takes the difference of two words
of 64 bits. Here its tally is written out beside the other (`TradeStatistics.Tally.addWord`), with
every count and every difference put back into its word, and **the two come to the same statistics
as long as nothing leaves its word** (`TradeStatistics.ofTradesInWords_eq`): the closed trades can
be counted, and each of them was held for a time of 64 bits (`CountsFit`).

Nothing has to be asked of the other counts and of the streaks. They are never above the number of
trades seen, and this is the invariant (`TradeStatistics.Tally.Below`) that carries the pass.
-/

set_option autoImplicit false

namespace MarketReplay

variable {α : Type}

/-- A time that was held has 64 bits. For an open trade there is no such time and nothing is
asked. -/
def HeldWithin (trade : Trade α) : Prop :=
  ∀ held ∈ trade.holdingMillis?, held ∈ IntRange.signed 64

/-- The trades of a log can be counted and timed in machine words. Open trades have no exit to be
timed by, and are not counted. -/
structure CountsFit (trades : List (Trade α)) : Prop where
  count_lt : (trades.filter Trade.isClosed).length < twoTo 32
  held : ∀ trade ∈ trades, HeldWithin trade

theorem inWord_holdingMillis? {trade : Trade α} (h : HeldWithin trade) :
    trade.holdingMillis?.map inWord = trade.holdingMillis? := by
  cases hheld : trade.holdingMillis? with
  | none => rfl
  | some held => exact congrArg some (inWord_of_mem (h held hheld))

namespace TradeStatistics

/-- What a counter of 32 bits keeps of a count. It starts over at zero; a build that checks would
stop instead. -/
def inCounter (n : Nat) : Nat := n % twoTo 32

variable [Scalar α]

/-- Counts the outcome of a trade, in counters of 32 bits. -/
def Tally.outcomeWord (t : Tally α) (pnl : α) : Tally α :=
  if isWin pnl then
    { t with
      winning := inCounter (t.winning + 1)
      totalWins := t.totalWins + pnl
      winStreak := inCounter (t.winStreak + 1)
      lossStreak := 0
      longestWins := Nat.max t.longestWins (inCounter (t.winStreak + 1)) }
  else if isLoss pnl then
    { t with
      losing := inCounter (t.losing + 1)
      totalLosses := t.totalLosses + Scalar.abs pnl
      lossStreak := inCounter (t.lossStreak + 1)
      winStreak := 0
      longestLosses := Nat.max t.longestLosses (inCounter (t.lossStreak + 1)) }
  else t

/-- Counts a closed trade, held for a difference of words. The sum of the times is a double here as
there, and needs no bound. -/
def Tally.addWord (t : Tally α) (trade : Trade α) : Tally α :=
  let held := Scalar.ofInt ((trade.holdingMillis?.map inWord).getD 0)
  { t with
    closed := inCounter (t.closed + 1)
    totalHolding := t.totalHolding + held }.outcomeWord trade.realizedPnl

/-- The statistics of a log, worked out in machine words. -/
def ofTradesInWords (trades : List (Trade α)) : TradeStatistics α :=
  ((trades.filter Trade.isClosed).foldl Tally.addWord Tally.zero).statistics

/-- No counter of outcomes is above a number. The longest streaks are left out: they are compared
and never counted up. -/
structure Tally.Below (t : Tally α) (n : Nat) : Prop where
  winning : t.winning ≤ n
  losing : t.losing ≤ n
  winStreak : t.winStreak ≤ n
  lossStreak : t.lossStreak ≤ n

theorem inCounter_succ {k n : Nat} (hk : k ≤ n) (hn : n + 1 < twoTo 32) :
    inCounter (k + 1) = k + 1 :=
  Nat.mod_eq_of_lt (Nat.lt_of_le_of_lt (Nat.succ_le_succ hk) hn)

variable {t : Tally α} {n : Nat}

theorem Tally.closed_outcome (t : Tally α) (pnl : α) : (t.outcome pnl).closed = t.closed := by
  unfold Tally.outcome
  split
  · rfl
  · split <;> rfl

theorem Tally.Below.outcome (h : t.Below n) (pnl : α) : (t.outcome pnl).Below (n + 1) := by
  obtain ⟨hwinning, hlosing, hwins, hlosses⟩ := h
  unfold Tally.outcome
  split
  · constructor <;> dsimp only <;> omega
  · split
    · constructor <;> dsimp only <;> omega
    · constructor <;> omega

theorem Tally.outcomeWord_eq (h : t.Below n) (hn : n + 1 < twoTo 32) (pnl : α) :
    t.outcomeWord pnl = t.outcome pnl := by
  unfold Tally.outcomeWord Tally.outcome
  rw [inCounter_succ h.winning hn, inCounter_succ h.losing hn, inCounter_succ h.winStreak hn,
    inCounter_succ h.lossStreak hn]

/-- **A trade is counted the same way**, and the counters are one further from zero at most. -/
theorem Tally.addWord_eq (hclosed : t.closed ≤ n) (h : t.Below n) (hn : n + 1 < twoTo 32)
    {trade : Trade α} (hheld : HeldWithin trade) :
    t.addWord trade = t.add trade ∧ (t.add trade).closed ≤ n + 1 ∧ (t.add trade).Below (n + 1) := by
  -- the outcome is counted on top of a tally that has its number and its time already, and these
  -- are no counters of outcomes
  have hcounted (held : α) : ({ t with
      closed := t.closed + 1
      totalHolding := t.totalHolding + held } : Tally α).Below n :=
    ⟨h.winning, h.losing, h.winStreak, h.lossStreak⟩
  refine ⟨?_, ?_, (hcounted _).outcome _⟩
  · unfold Tally.addWord Tally.add
    dsimp only
    rw [inCounter_succ hclosed hn, inWord_holdingMillis? hheld,
      Tally.outcomeWord_eq (hcounted _) hn]
  · unfold Tally.add
    rw [Tally.closed_outcome]
    exact Nat.succ_le_succ hclosed

theorem Tally.foldl_addWord (closed : List (Trade α)) (hclosed : t.closed ≤ n) (h : t.Below n)
    (hn : n + closed.length < twoTo 32) (hheld : ∀ trade ∈ closed, HeldWithin trade) :
    closed.foldl Tally.addWord t = closed.foldl Tally.add t := by
  induction closed generalizing t n with
  | nil => rfl
  | cons trade closed ih =>
    obtain ⟨htrade, hheld⟩ := List.forall_mem_cons.mp hheld
    have hlength : n + 1 + closed.length < twoTo 32 := by
      rw [List.length_cons] at hn
      omega
    obtain ⟨hadd, hclosed, h⟩ := Tally.addWord_eq hclosed h (by omega) htrade
    rw [List.foldl_cons, List.foldl_cons, hadd]
    exact ih hclosed h hlength hheld

/-- **The statistics in words are the statistics**, of every log that can be counted and timed. -/
theorem ofTradesInWords_eq {trades : List (Trade α)} (h : CountsFit trades) :
    ofTradesInWords trades = ofTrades trades := by
  have hzero : (Tally.zero : Tally α).Below 0 :=
    ⟨Nat.le_refl 0, Nat.le_refl 0, Nat.le_refl 0, Nat.le_refl 0⟩
  have hcount : 0 + (trades.filter Trade.isClosed).length < twoTo 32 := by
    rw [Nat.zero_add]
    exact h.count_lt
  have hheld : ∀ trade ∈ trades.filter Trade.isClosed, HeldWithin trade :=
    fun trade htrade => h.held trade (List.mem_filter.mp htrade).1
  rw [ofTradesInWords, ofTrades, Tally.foldl_addWord _ (Nat.le_refl 0) hzero hcount hheld]

end TradeStatistics

end MarketReplay
