import Mathlib.Algebra.BigOperators.Group.List.Basic
import Mathlib.Order.Bounds.Basic
import MarketReplay.Proofs.Performance.Agreement
import MarketReplay.Proofs.Performance.Words

/-!
# Statistics of trades, said of the whole log

The statistics of a log are kept in one pass, by a tally of ten numbers. What the pass comes to is
said here of the list of profits and losses of the closed trades, without a tally: wins and losses
are parts of the list, means are sums over lengths, and the longest streak is the longest block of
wins in what is left of the list when trades that are neither are taken out (`IsLongestBlock`).

**`statistics_of_log`** says so for every curve and log over the rationals. A trade that is neither
win nor loss leaves a streak as it is, so the invariant speaks of the decided trades alone: the
streak is the longest block at their end (`IsLongestEnd`), and the longest streak the longest block
anywhere (`Tally.Follows`).
-/

set_option autoImplicit false

namespace MarketReplay

/-! ## Blocks of a list

The longest block of a list and the longest one at its end, and what one more element does to them.
These are the streaks of a tally, said without counting. -/

section blocks

variable {γ : Type} {p : γ → Prop} {xs : List γ} {x : γ} {n k : ℕ}

/-- The number is the length of the longest block of the list whose members all have the
property. -/
def IsLongestBlock (p : γ → Prop) (xs : List γ) (n : ℕ) : Prop :=
  IsGreatest {n | ∃ block, block <:+: xs ∧ (∀ x ∈ block, p x) ∧ block.length = n} n

/-- The same for blocks that end where the list ends. A block that goes on is one of these, and this
is what a streak counts. -/
def IsLongestEnd (p : γ → Prop) (xs : List γ) (n : ℕ) : Prop :=
  IsGreatest {n | ∃ block, block <:+ xs ∧ (∀ x ∈ block, p x) ∧ block.length = n} n

theorem isLongestBlock_nil (p : γ → Prop) : IsLongestBlock p [] 0 := by
  refine ⟨⟨[], List.infix_rfl, by simp, rfl⟩, ?_⟩
  rintro n ⟨block, hblock, -, rfl⟩
  exact (List.infix_nil.mp hblock ▸ Nat.le_refl 0 : block.length ≤ 0)

theorem isLongestEnd_nil (p : γ → Prop) : IsLongestEnd p [] 0 := by
  refine ⟨⟨[], List.suffix_rfl, by simp, rfl⟩, ?_⟩
  rintro n ⟨block, hblock, -, rfl⟩
  exact (List.suffix_nil.mp hblock ▸ Nat.le_refl 0 : block.length ≤ 0)

theorem IsLongestEnd.concat (h : IsLongestEnd p xs k) (hx : p x) :
    IsLongestEnd p (xs ++ [x]) (k + 1) := by
  obtain ⟨⟨longest, hlongest, hall, hlength⟩, hbound⟩ := h
  constructor
  · refine ⟨longest ++ [x], List.suffix_concat_iff.mpr (.inr ⟨longest, rfl, hlongest⟩), ?_, ?_⟩
    · intro y hy
      rcases List.mem_append.mp hy with hy | hy
      · exact hall y hy
      · exact List.mem_singleton.mp hy ▸ hx
    · rw [List.length_append, hlength, List.length_singleton]
  · rintro n ⟨block, hblock, hallblock, rfl⟩
    rcases List.suffix_concat_iff.mp hblock with rfl | ⟨start, rfl, hstart⟩
    · exact Nat.zero_le _
    · have hle : start.length ≤ k :=
        hbound ⟨start, hstart, fun y hy => hallblock y (by simp [hy]), rfl⟩
      simpa using hle

theorem isLongestEnd_concat_of_not (xs : List γ) (hx : ¬p x) : IsLongestEnd p (xs ++ [x]) 0 := by
  refine ⟨⟨[], List.nil_suffix, by simp, rfl⟩, ?_⟩
  rintro n ⟨block, hblock, hallblock, rfl⟩
  rcases List.suffix_concat_iff.mp hblock with rfl | ⟨start, rfl, -⟩
  · exact Nat.le_refl 0
  · exact absurd (hallblock x (by simp)) hx

/-- A block either ends with the last element, or was there before it. -/
theorem IsLongestBlock.concat (h : IsLongestBlock p xs n) (hend : IsLongestEnd p (xs ++ [x]) k) :
    IsLongestBlock p (xs ++ [x]) (Nat.max n k) := by
  obtain ⟨⟨longest, hlongest, hall, hlength⟩, hbound⟩ := h
  obtain ⟨⟨last, hlast, hallLast, hlengthLast⟩, hboundLast⟩ := hend
  constructor
  · rcases Nat.le_total n k with hle | hle
    · exact ⟨last, hlast.isInfix, hallLast, hlengthLast.trans (Nat.max_eq_right hle).symm⟩
    · exact ⟨longest, List.infix_concat_iff.mpr (.inr hlongest), hall,
        hlength.trans (Nat.max_eq_left hle).symm⟩
  · rintro m ⟨block, hblock, hallblock, rfl⟩
    rcases List.infix_concat_iff.mp hblock with hsuffix | hinfix
    · exact (hboundLast ⟨block, hsuffix, hallblock, rfl⟩).trans (Nat.le_max_right ..)
    · exact (hbound ⟨block, hinfix, hallblock, rfl⟩).trans (Nat.le_max_left ..)

theorem IsLongestBlock.concat_of_not (h : IsLongestBlock p xs n) (hx : ¬p x) :
    IsLongestBlock p (xs ++ [x]) n := by
  simpa using h.concat (isLongestEnd_concat_of_not xs hx)

end blocks

/-! ## Wins and losses

What tells them apart is a threshold of a fixed amount. Between the two thresholds a trade is
neither. -/

/-- A profit above the threshold. -/
def IsGain (pnl : ℚ) : Prop := 1e-8 < pnl

/-- A loss below it. -/
def IsSetback (pnl : ℚ) : Prop := pnl < -1e-8

instance (pnl : ℚ) : Decidable (IsGain pnl) := inferInstanceAs (Decidable (1e-8 < pnl))

instance (pnl : ℚ) : Decidable (IsSetback pnl) := inferInstanceAs (Decidable (pnl < -1e-8))

theorem isWin_rat (pnl : ℚ) : isWin pnl = decide (IsGain pnl) := rfl

theorem isLoss_rat (pnl : ℚ) : isLoss pnl = decide (IsSetback pnl) := rfl

theorem IsGain.pos {pnl : ℚ} (h : IsGain pnl) : 0 < pnl :=
  lt_trans (by norm_num) (show (1e-8 : ℚ) < pnl from h)

theorem IsSetback.neg {pnl : ℚ} (h : IsSetback pnl) : pnl < 0 :=
  lt_trans (show pnl < (-1e-8 : ℚ) from h) (by norm_num)

theorem IsGain.not_isSetback {pnl : ℚ} (h : IsGain pnl) : ¬IsSetback pnl :=
  fun hloss => h.pos.not_gt hloss.neg

/-- What is left without the trades that are neither wins nor losses. Such a trade does not end a
streak, so streaks are blocks of this list and not of the whole one. -/
def decided (pnls : List ℚ) : List ℚ := pnls.filter fun pnl => IsGain pnl ∨ IsSetback pnl

theorem decided_concat_of {pnls : List ℚ} {pnl : ℚ} (h : IsGain pnl ∨ IsSetback pnl) :
    decided (pnls ++ [pnl]) = decided pnls ++ [pnl] := by
  simp [decided, h]

theorem decided_concat_of_not {pnls : List ℚ} {pnl : ℚ} (h : ¬(IsGain pnl ∨ IsSetback pnl)) :
    decided (pnls ++ [pnl]) = decided pnls := by
  simp [decided, h]

/-! ## The tally

The invariant of the pass. The counts of the tally are treated apart, as lengths. -/

namespace TradeStatistics

/-- What a tally says of the profits and losses it has counted, apart from their numbers. -/
structure Tally.Follows (t : Tally ℚ) (pnls : List ℚ) : Prop where
  totalWins_eq : t.totalWins = (pnls.filter IsGain).sum
  totalLosses_eq : t.totalLosses = -(pnls.filter IsSetback).sum
  winStreak : IsLongestEnd IsGain (decided pnls) t.winStreak
  lossStreak : IsLongestEnd IsSetback (decided pnls) t.lossStreak
  longestWins : IsLongestBlock IsGain (decided pnls) t.longestWins
  longestLosses : IsLongestBlock IsSetback (decided pnls) t.longestLosses

variable {t : Tally ℚ} {pnls : List ℚ} {pnl : ℚ}

theorem Tally.Follows.zero : (Tally.zero : Tally ℚ).Follows [] where
  totalWins_eq := rfl
  totalLosses_eq := rfl
  winStreak := isLongestEnd_nil _
  lossStreak := isLongestEnd_nil _
  longestWins := isLongestBlock_nil _
  longestLosses := isLongestBlock_nil _

theorem Tally.Follows.win (h : t.Follows pnls) (hwin : IsGain pnl) :
    (t.outcome pnl).Follows (pnls ++ [pnl]) := by
  have hdecided : decided (pnls ++ [pnl]) = decided pnls ++ [pnl] := decided_concat_of (.inl hwin)
  have hend := h.winStreak.concat hwin
  unfold Tally.outcome
  rw [isWin_rat, if_pos (decide_eq_true hwin)]
  constructor
  case totalWins_eq =>
    show t.totalWins + pnl = _
    simp [h.totalWins_eq, hwin]
  case totalLosses_eq => simp [h.totalLosses_eq, hwin.not_isSetback]
  case winStreak => exact hdecided ▸ hend
  case lossStreak => exact hdecided ▸ isLongestEnd_concat_of_not _ hwin.not_isSetback
  case longestWins => exact hdecided ▸ h.longestWins.concat hend
  case longestLosses => exact hdecided ▸ h.longestLosses.concat_of_not hwin.not_isSetback

theorem Tally.Follows.loss (h : t.Follows pnls) (hloss : IsSetback pnl) :
    (t.outcome pnl).Follows (pnls ++ [pnl]) := by
  have hwin : ¬IsGain pnl := fun hwin => hwin.not_isSetback hloss
  have hdecided : decided (pnls ++ [pnl]) = decided pnls ++ [pnl] := decided_concat_of (.inr hloss)
  have hend := h.lossStreak.concat hloss
  unfold Tally.outcome
  rw [isWin_rat, isLoss_rat, decide_eq_false hwin, if_neg Bool.false_ne_true,
    if_pos (decide_eq_true hloss)]
  constructor
  case totalWins_eq => simp [h.totalWins_eq, hwin]
  -- losses are summed up without their sign
  case totalLosses_eq =>
    show t.totalLosses + Scalar.abs pnl = _
    rw [abs_rat, abs_of_neg hloss.neg, h.totalLosses_eq]
    simp [hloss, add_comm]
  case winStreak => exact hdecided ▸ isLongestEnd_concat_of_not _ hwin
  case lossStreak => exact hdecided ▸ hend
  case longestWins => exact hdecided ▸ h.longestWins.concat_of_not hwin
  case longestLosses => exact hdecided ▸ h.longestLosses.concat hend

theorem Tally.Follows.neither (h : t.Follows pnls) (hwin : ¬IsGain pnl) (hloss : ¬IsSetback pnl) :
    (t.outcome pnl).Follows (pnls ++ [pnl]) := by
  have hdecided : decided (pnls ++ [pnl]) = decided pnls :=
    decided_concat_of_not (not_or.mpr ⟨hwin, hloss⟩)
  unfold Tally.outcome
  rw [isWin_rat, isLoss_rat, decide_eq_false hwin, decide_eq_false hloss,
    if_neg Bool.false_ne_true, if_neg Bool.false_ne_true]
  constructor
  case totalWins_eq => simp [h.totalWins_eq, hwin]
  case totalLosses_eq => simp [h.totalLosses_eq, hloss]
  all_goals rw [hdecided]
  case winStreak => exact h.winStreak
  case lossStreak => exact h.lossStreak
  case longestWins => exact h.longestWins
  case longestLosses => exact h.longestLosses

theorem Tally.Follows.add (h : t.Follows pnls) (trade : Trade ℚ) :
    (t.add trade).Follows (pnls ++ [trade.realizedPnl]) := by
  -- the count and the holding time are no part of what is followed
  have hcounted : Tally.Follows { t with
      closed := t.closed + 1
      totalHolding := t.totalHolding + Scalar.ofInt (trade.holdingMillis?.getD 0) } pnls :=
    ⟨h.totalWins_eq, h.totalLosses_eq, h.winStreak, h.lossStreak, h.longestWins, h.longestLosses⟩
  by_cases hwin : IsGain trade.realizedPnl
  · exact hcounted.win hwin
  · by_cases hloss : IsSetback trade.realizedPnl
    · exact hcounted.loss hloss
    · exact hcounted.neither hwin hloss

/-- **What the pass comes to.** The induction adds trades at the end of the list, which is where a
streak goes on. -/
theorem Tally.follows_foldl (closed : List (Trade ℚ)) :
    (closed.foldl Tally.add Tally.zero).Follows (closed.map Trade.realizedPnl) := by
  induction closed using List.reverseRecOn with
  | nil => exact .zero
  | append_singleton closed trade ih =>
    rw [List.foldl_append, List.map_append]
    exact ih.add trade

theorem Tally.totalHolding_foldl (closed : List (Trade ℚ)) (t : Tally ℚ) :
    (closed.foldl Tally.add t).totalHolding =
      t.totalHolding + (closed.map fun trade => ((trade.holdingMillis?.getD 0 : ℤ) : ℚ)).sum := by
  induction closed generalizing t with
  | nil => exact (add_zero _).symm
  | cons trade closed ih =>
    have hheld : (Scalar.ofInt (trade.holdingMillis?.getD 0) : ℚ) =
        (trade.holdingMillis?.getD 0 : ℤ) := rfl
    rw [List.foldl_cons, ih, Tally.totalHolding_add, hheld, List.map_cons, List.sum_cons, add_assoc]

end TradeStatistics

/-! ## The metrics of a log

From the tally to the metrics, each of which is a quotient of two of its numbers or one of them. -/

/-- The sum over the number; zero if there is none, as division by zero has it. -/
def meanOf (xs : List ℚ) : ℚ := xs.sum / xs.length

/-- The profits and losses of the closed trades, in the order of the log. -/
def closedPnls (trades : List (Trade ℚ)) : List ℚ :=
  (trades.filter Trade.isClosed).map Trade.realizedPnl

/-- The times from entry to exit of the trades that have an exit. The differences are taken in the
whole numbers, and only then turned into rationals. -/
def holdings (trades : List (Trade ℚ)) : List ℚ :=
  trades.filterMap fun t => t.exitTimestamp.map fun exit => ((exit - t.entryTimestamp : ℤ) : ℚ)

theorem holdings_eq (trades : List (Trade ℚ)) :
    holdings trades = (trades.filter Trade.isClosed).map
      fun t => ((t.holdingMillis?.getD 0 : ℤ) : ℚ) := by
  induction trades with
  | nil => rfl
  | cons t trades ih =>
    cases hexit : t.exitTimestamp with
    | none =>
      have hopen : t.isClosed = false := congrArg Option.isSome hexit
      simpa [holdings, hexit, hopen] using ih
    | some exit =>
      have hclosed : t.isClosed = true := congrArg Option.isSome hexit
      simpa [holdings, hexit, hclosed, Trade.holdingMillis?] using ih

/-- What metrics say of a log, as statements on its profits and losses. Without closed trades every
rate is zero; with wins and no losses the ratio is the largest number of the format. -/
structure Metrics.Describes (m : Metrics ℚ) (trades : List (Trade ℚ)) : Prop where
  totalTrades_eq : m.totalTrades = (closedPnls trades).length
  winningTrades_eq : m.winningTrades = ((closedPnls trades).filter IsGain).length
  losingTrades_eq : m.losingTrades = ((closedPnls trades).filter IsSetback).length
  winRate_eq : m.winRate = if closedPnls trades = [] then 0
    else (((closedPnls trades).filter IsGain).length : ℚ) / (closedPnls trades).length
  longestWins : IsLongestBlock IsGain (decided (closedPnls trades)) m.maxConsecutiveWins
  longestLosses : IsLongestBlock IsSetback (decided (closedPnls trades)) m.maxConsecutiveLosses
  profitLossRatio_eq : m.profitLossRatio =
    if (closedPnls trades).filter IsGain = [] then 0
    else if (closedPnls trades).filter IsSetback = [] then Scalar.largest
    else min (meanOf ((closedPnls trades).filter IsGain) /
      |meanOf ((closedPnls trades).filter IsSetback)|) Scalar.largest
  averageHolding_eq : m.averageHolding = meanOf (holdings trades)

theorem meanOf_gains_nonneg (pnls : List ℚ) : 0 ≤ meanOf (pnls.filter IsGain) := by
  refine div_nonneg (List.sum_nonneg ?_) (Nat.cast_nonneg _)
  intro pnl hpnl
  exact (of_decide_eq_true (List.mem_filter.mp hpnl).2 : IsGain pnl).pos.le

theorem abs_meanOf_setbacks (pnls : List ℚ) :
    |meanOf (pnls.filter IsSetback)| =
      -(pnls.filter IsSetback).sum / (pnls.filter IsSetback).length := by
  have hsum : (pnls.filter IsSetback).sum ≤ 0 := by
    refine (List.sum_le_card_nsmul _ 0 ?_).trans_eq (nsmul_zero _)
    intro pnl hpnl
    exact (of_decide_eq_true (List.mem_filter.mp hpnl).2 : IsSetback pnl).neg.le
  rw [meanOf, abs_div, abs_of_nonpos hsum, Nat.abs_cast]

namespace TradeStatistics

theorem lengths_ofTrades (trades : List (Trade ℚ)) :
    (ofTrades trades).closed = (closedPnls trades).length ∧
      (ofTrades trades).winning = ((closedPnls trades).filter IsGain).length ∧
      (ofTrades trades).losing = ((closedPnls trades).filter IsSetback).length := by
  -- a win is no loss, so that the order of the two questions does not matter
  have hloss (pnl : ℚ) : countsAsLoss pnl = decide (IsSetback pnl) := by
    rw [countsAsLoss, isWin_rat, isLoss_rat]
    by_cases hwin : IsGain pnl
    · simp [hwin, hwin.not_isSetback]
    · simp [hwin]
  obtain ⟨hclosed, hwinning, hlosing⟩ := counts_ofTrades trades
  simp only [isWin_rat, hloss] at hwinning hlosing
  refine ⟨?_, ?_, ?_⟩
  · rw [hclosed, closedPnls, List.length_map]
  · rw [hwinning, closedPnls, ← List.countP_eq_length_filter, List.countP_map]
    rfl
  · rw [hlosing, closedPnls, ← List.countP_eq_length_filter, List.countP_map]
    rfl

theorem profitLossRatio_ofTrades (trades : List (Trade ℚ)) :
    (ofTrades trades).profitLossRatio =
      if (closedPnls trades).filter IsGain = [] then 0
      else if (closedPnls trades).filter IsSetback = [] then Scalar.largest
      else min (meanOf ((closedPnls trades).filter IsGain) /
        |meanOf ((closedPnls trades).filter IsSetback)|) Scalar.largest := by
  obtain ⟨-, hwinning, hlosing⟩ := lengths_ofTrades trades
  have hfollows := Tally.follows_foldl (trades.filter Trade.isClosed)
  -- the tally gets a name, or it would be computed
  generalize htally : (trades.filter Trade.isClosed).foldl Tally.add Tally.zero = t at hfollows
  have hstatistics : ofTrades trades = t.statistics := by rw [ofTrades, htally]
  rw [hstatistics] at hwinning hlosing ⊢
  have hwinning : t.winning = _ := hwinning
  have hlosing : t.losing = _ := hlosing
  have hratio : t.profitLossRatio = if t.winning = 0 then 0
      else if t.losing = 0 then Scalar.largest
      else Scalar.bounded ((t.totalWins / t.winning) / (t.totalLosses / t.losing)) := rfl
  show t.profitLossRatio = _
  simp only [hratio, hwinning, hlosing, List.length_eq_zero_iff]
  -- the quotient is not below zero, so only the upper bound can act
  have hquotient : 0 ≤ meanOf ((closedPnls trades).filter IsGain) /
      |meanOf ((closedPnls trades).filter IsSetback)| :=
    div_nonneg (meanOf_gains_nonneg _) (abs_nonneg _)
  have hlargest : (0 : ℚ) ≤ Scalar.largest := by decide +kernel
  rw [hfollows.totalWins_eq, hfollows.totalLosses_eq, ← closedPnls, ← abs_meanOf_setbacks, ← meanOf,
    bounded_rat, max_eq_right]
  exact (neg_nonpos.mpr hlargest).trans (le_min hquotient hlargest)

theorem winRate_ofTrades (trades : List (Trade ℚ)) :
    (ofTrades trades).winRate = if closedPnls trades = [] then 0
      else (((closedPnls trades).filter IsGain).length : ℚ) / (closedPnls trades).length := by
  obtain ⟨hclosed, hwinning, -⟩ := lengths_ofTrades trades
  have hrate : (ofTrades trades).winRate = if (ofTrades trades).closed = 0 then 0
      else ((ofTrades trades).winning : ℚ) / (ofTrades trades).closed := rfl
  rw [hrate, hclosed, hwinning]
  simp only [List.length_eq_zero_iff]

theorem averageHolding_ofTrades (trades : List (Trade ℚ)) :
    (ofTrades trades).averageHolding = meanOf (holdings trades) := by
  have hsum : ((trades.filter Trade.isClosed).foldl Tally.add Tally.zero).totalHolding =
      (holdings trades).sum := by
    rw [Tally.totalHolding_foldl, ← holdings_eq]
    exact zero_add _
  have hlength : (ofTrades trades).closed = (holdings trades).length := by
    rw [(lengths_ofTrades trades).1, closedPnls, holdings_eq, List.length_map, List.length_map]
  have hmean : (ofTrades trades).averageHolding = if (ofTrades trades).closed = 0 then 0
      else ((trades.filter Trade.isClosed).foldl Tally.add Tally.zero).totalHolding /
        ((ofTrades trades).closed : ℚ) := rfl
  rw [hmean, hsum, hlength, meanOf]
  split
  · rename_i hnone
    rw [hnone, Nat.cast_zero, div_zero]
  · rfl

/-- What the trades that are closed say is all that counts: open ones may be added or left out, at
any place. -/
theorem ofTrades_congr {trades others : List (Trade ℚ)}
    (h : others.filter Trade.isClosed = trades.filter Trade.isClosed) :
    ofTrades others = ofTrades trades := by
  rw [ofTrades, ofTrades, h]

end TradeStatistics

namespace Metrics

section statistics

variable [RootPower ℚ]

/-- **The statistics of a log**, for every curve over the rationals and every log that can be
counted and timed in machine words: what the metrics say is a statement on the profits and losses of
the closed trades (`Metrics.Describes`), counters of 32 bits and times of 64 bits come to the same,
and open trades make no difference wherever they stand. -/
theorem statistics_of_log (curve : List (EquityPoint ℚ)) (timestamps : List ℤ)
    (trades : List (Trade ℚ)) (initialCapital : ℚ) (hcurve : curve ≠ [])
    (hlength : timestamps.length = curve.length) (hfits : CountsFit trades) :
    (analyze curve timestamps trades initialCapital).Describes trades ∧
      TradeStatistics.ofTradesInWords trades = TradeStatistics.ofTrades trades ∧
      ∀ others : List (Trade ℚ),
        others.filter Trade.isClosed = trades.filter Trade.isClosed →
          analyze curve timestamps others initialCapital =
            analyze curve timestamps trades initialCapital := by
  obtain ⟨finalEquity, first, last, -, hmetrics⟩ := analyze_of_curve hcurve hlength
  simp only [hmetrics]
  refine ⟨?_, TradeStatistics.ofTradesInWords_eq hfits, ?_⟩
  · obtain ⟨hclosed, hwinning, hlosing⟩ := TradeStatistics.lengths_ofTrades trades
    have hfollows := TradeStatistics.Tally.follows_foldl (trades.filter Trade.isClosed)
    constructor
    case totalTrades_eq => exact hclosed
    case winningTrades_eq => exact hwinning
    case losingTrades_eq => exact hlosing
    case winRate_eq => exact TradeStatistics.winRate_ofTrades trades
    case longestWins => exact hfollows.longestWins
    case longestLosses => exact hfollows.longestLosses
    case profitLossRatio_eq => exact TradeStatistics.profitLossRatio_ofTrades trades
    case averageHolding_eq => exact TradeStatistics.averageHolding_ofTrades trades
  · -- the log enters by its statistics, and these by the closed trades
    intro others hothers
    unfold ofCurve
    rw [TradeStatistics.ofTrades_congr hothers]

end statistics

def closedTrade (held : ℤ) (pnl : ℚ) : Trade ℚ := ⟨0, some held, .buy, 1, some (1 + pnl), 1, 0, pnl⟩

/-- Wins, losses, a trade that is neither, and one that is still open. -/
def mixedTrades : List (Trade ℚ) :=
  [closedTrade 10 4, closedTrade 10 2, closedTrade 20 (-1), closedTrade 10 (-2),
    ⟨0, none, .buy, 1, none, 1, 0, 0⟩, closedTrade 30 0, closedTrade 10 (-3), closedTrade 15 6]

theorem countsFit_mixedTrades : CountsFit mixedTrades := by
  refine ⟨by decide +kernel, ?_⟩
  unfold HeldWithin
  decide +kernel

/-- The three losses are one streak, since the trade of no profit between them does not count. -/
theorem statistics_of_mixedTrades :
    letI := RootPower.standIns
    let m := analyze [⟨0, 1, 0⟩] [0] mixedTrades 1
    [(⟨0, 1, 0⟩ : EquityPoint ℚ)] ≠ [] ∧ CountsFit mixedTrades ∧ m.Describes mixedTrades ∧
      m.totalTrades = 7 ∧ m.winRate = 3 / 7 ∧ m.profitLossRatio = 2 ∧ m.averageHolding = 15 ∧
      IsLongestBlock IsSetback [4, 2, -1, -2, -3, 6] 3 ∧
      analyze [⟨0, 1, 0⟩] [0] (mixedTrades.filter Trade.isClosed) 1 = m := by
  let roots := RootPower.standIns
  obtain ⟨hdescribes, -, hcongr⟩ :=
    statistics_of_log [⟨0, 1, 0⟩] [0] mixedTrades 1 (List.cons_ne_nil _ _) rfl countsFit_mixedTrades
  have hnumbers : let m := analyze [⟨0, 1, 0⟩] [0] mixedTrades 1
      m.totalTrades = 7 ∧ m.winRate = 3 / 7 ∧ m.profitLossRatio = 2 ∧ m.averageHolding = 15 := by
    decide +kernel
  obtain ⟨htrades, hrate, hratio, hholding⟩ := hnumbers
  have hdecided : decided (closedPnls mixedTrades) = [4, 2, -1, -2, -3, 6] := by decide +kernel
  have hlosses : (analyze [⟨0, 1, 0⟩] [0] mixedTrades 1).maxConsecutiveLosses = 3 := by
    decide +kernel
  have hlongest := hdescribes.longestLosses
  rw [hdecided, hlosses] at hlongest
  have hclosed : (mixedTrades.filter Trade.isClosed).filter Trade.isClosed =
      mixedTrades.filter Trade.isClosed := List.filter_filter.trans (by simp)
  exact ⟨List.cons_ne_nil _ _, countsFit_mixedTrades, hdescribes, htrades, hrate, hratio, hholding,
    hlongest, hcongr _ hclosed⟩

end Metrics

end MarketReplay
