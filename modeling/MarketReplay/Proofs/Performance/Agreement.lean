import MarketReplay.Performance.Metrics
import MarketReplay.Proofs.Double.Packing
import MarketReplay.Proofs.Performance.Drawdown
import MarketReplay.Proofs.Replay.Record

/-!
# The metrics of a run agree with its record

Several numbers of a run are worked out twice: while the series is replayed, from the book, and
afterwards from the record alone. The trades that are closed are counted in both, and so are wins
and losses; the drawdown is carried along a run, and found again in the curve.

**`metrics_agree` says that the two agree for every run on doubles**, whatever the source, the
prices and the place where the run stops (`Metrics.AgreesWith`).

The invariant of the walk is that the peak is the maximum of the equities recorded, so that the
drawdowns are those of the curve (`drawdowns_walk`). What the log says about the position is known
from `kept_and_dated`.

Doubles are in this for two reasons. A loss is counted by the one as a trade that is a loss, by the
other as one that is a loss and not a win; and a maximum is taken from zero on. Both come to the
same because of how doubles compare, and for a `NaN` as well.
-/

set_option autoImplicit false

namespace MarketReplay

/-! ## Counts

What a tally counts are the trades of a list with some property, whatever else it sums up. -/

section counts

variable {α : Type} [Scalar α]

namespace TradeStatistics

/-- A trade counts as a loss if it is one and not a win. The statistics ask in this order, and the
record asks for losses alone. -/
def countsAsLoss (pnl : α) : Bool := !isWin pnl && isLoss pnl

theorem Tally.counts_add (t : Tally α) (trade : Trade α) :
    (t.add trade).closed = t.closed + 1 ∧
      (t.add trade).winning = t.winning + (isWin trade.realizedPnl).toNat ∧
      (t.add trade).losing = t.losing + (countsAsLoss trade.realizedPnl).toNat := by
  unfold Tally.add Tally.outcome countsAsLoss
  cases isWin trade.realizedPnl <;> cases isLoss trade.realizedPnl <;> exact ⟨rfl, rfl, rfl⟩

theorem Tally.counts_foldl (trades : List (Trade α)) (t : Tally α) :
    (trades.foldl Tally.add t).closed = t.closed + trades.length ∧
      (trades.foldl Tally.add t).winning =
        t.winning + trades.countP (fun trade => isWin trade.realizedPnl) ∧
      (trades.foldl Tally.add t).losing =
        t.losing + trades.countP (fun trade => countsAsLoss trade.realizedPnl) := by
  induction trades generalizing t with
  | nil => exact ⟨rfl, rfl, rfl⟩
  | cons trade trades ih =>
    obtain ⟨hclosed, hwinning, hlosing⟩ := t.counts_add trade
    obtain ⟨hclosed', hwinning', hlosing'⟩ := ih (t.add trade)
    rw [List.foldl_cons, hclosed', hwinning', hlosing', hclosed, hwinning, hlosing]
    simp only [List.countP_cons, List.length_cons]
    refine ⟨by omega, ?_, ?_⟩
    · cases isWin trade.realizedPnl <;> simp +arith
    · cases countsAsLoss trade.realizedPnl <;> simp +arith

theorem counts_ofTrades (trades : List (Trade α)) :
    let closed := trades.filter Trade.isClosed
    (ofTrades trades).closed = closed.length ∧
      (ofTrades trades).winning = closed.countP (fun t => isWin t.realizedPnl) ∧
      (ofTrades trades).losing = closed.countP (fun t => countsAsLoss t.realizedPnl) := by
  intro closed
  have h := Tally.counts_foldl closed Tally.zero
  simpa [ofTrades, Tally.statistics, Tally.zero, closed] using h

theorem Tally.totalHolding_add (t : Tally α) (trade : Trade α) :
    (t.add trade).totalHolding =
      t.totalHolding + Scalar.ofInt (trade.holdingMillis?.getD 0) := by
  unfold Tally.add Tally.outcome
  cases isWin trade.realizedPnl <;> cases isLoss trade.realizedPnl <;> rfl

end TradeStatistics

end counts

/-- No double is a win and a loss, since no double lies on both sides of zero. -/
theorem countsAsLoss_eq (pnl : Float) : TradeStatistics.countsAsLoss pnl = isLoss pnl := by
  unfold TradeStatistics.countsAsLoss
  cases hwin : isWin pnl with
  | false => rfl
  | true =>
    cases hloss : isLoss pnl with
    | false => rfl
    | true =>
      have hthreshold : ¬(pnlThreshold : Float) < -pnlThreshold := by decide +kernel
      exact absurd (Double.lt_trans (of_decide_eq_true hwin) (of_decide_eq_true hloss)) hthreshold

/-! ## Drawdowns

The drawdowns of a run against those of its curve, and the largest of them. The first is an
invariant of the walk, the second a fact about lists of doubles. -/

section drawdowns

variable {α : Type} [Scalar α]

/-- The equities of a curve that is kept newest first. -/
def equities (curve : List (EquityPoint α)) : List α := (curve.map EquityPoint.equity).reverse

/-- **What a walk keeps**: the peak is the maximum of the equities, and the drawdowns recorded are
those of the curve. -/
theorem drawdowns_walk {σ : Type} {source : SignalSource α σ} {costs : AccountSettings α}
    {state : σ} {bars : List (Bar α)} {last : Session α σ}
    (hwalk : (Session.start costs (source.reset state)).walk source costs bars = (last, none)) :
    last.peak = (equities last.curve).foldl Scalar.max lowestPeak ∧
      drawdowns (equities last.curve) = (last.curve.map EquityPoint.drawdown).reverse := by
  refine Session.walk_invariant
    (P := fun _ s => s.peak = (equities s.curve).foldl Scalar.max lowestPeak ∧
      drawdowns (equities s.curve) = (s.curve.map EquityPoint.drawdown).reverse)
    ⟨rfl, rfl⟩ ?_ hwalk
  rintro past bar rest s s' - ⟨hpeak, hdrawdowns⟩ hstep
  -- one more equity at the end, and one more peak to compare it with
  have hcurve : equities s'.curve = equities s.curve ++ [s'.book.equity bar.closing] := by
    rw [equities, Session.curve_step hstep]
    simp [equities]
  have hpeak' : s'.peak =
      Scalar.max ((equities s.curve).foldl Scalar.max lowestPeak) (s'.book.equity bar.closing) := by
    rw [Session.peak_step hstep, hpeak]
  refine ⟨?_, ?_⟩
  · rw [hcurve, List.foldl_append, hpeak']
    rfl
  · rw [hcurve, drawdowns, drawdownsAfter_append, ← drawdowns, hdrawdowns,
      Session.curve_step hstep, hpeak']
    simp [drawdownsAfter]

end drawdowns

theorem isNaN_zero : Scalar.isNaN (0 : Float) = false := by decide +kernel

theorem drawdown_eq (peak equity : Float) : drawdown peak equity =
    if 0 < peak then
      if 0 < (peak - equity) / peak then (peak - equity) / peak else 0
    else 0 := rfl

theorem drawdown_cases (peak equity : Float) :
    drawdown peak equity = 0 ∨ 0 < drawdown peak equity := by
  rw [drawdown_eq]
  split
  · split
    · rename_i hpos
      exact .inr hpos
    · exact .inl rfl
  · exact .inl rfl

theorem drawdownsAfter_cases {peak x : Float} {curve : List Float}
    (hx : x ∈ drawdownsAfter peak curve) : x = 0 ∨ 0 < x := by
  induction curve generalizing peak with
  | nil => cases hx
  | cons equity rest ih =>
    rcases List.mem_cons.mp hx with rfl | hx
    · exact drawdown_cases _ _
    · exact ih hx

/-- The number is the largest of a list, and zero if there are none. It is one of the list, which a
bound from above alone would not say. -/
structure IsLargest (x : Float) (xs : List Float) : Prop where
  le : ∀ y ∈ xs, y ≤ x
  mem : xs ≠ [] → x ∈ xs
  zero : xs = [] → x = 0

/-- The maximum is taken from zero on, which makes no difference to drawdowns: none of them is
`NaN`, and none is below zero. -/
theorem isLargest_foldl_max {xs : List Float} (hxs : ∀ x ∈ xs, x = 0 ∨ 0 < x) :
    IsLargest (xs.foldl Scalar.max 0) xs := by
  have hnan : ∀ x ∈ xs, Scalar.isNaN x = false := by
    intro x hx
    rcases hxs x hx with rfl | hpos
    · exact isNaN_zero
    · exact (Double.isNaN_of_lt hpos).2
  obtain ⟨hmem, hbound⟩ := Double.foldl_max isNaN_zero hnan
  refine ⟨fun x hx => hbound x (List.mem_cons_of_mem 0 hx), ?_, fun hnil => by rw [hnil]; rfl⟩
  intro hne
  rcases List.mem_cons.mp hmem with hzero | hmem
  · -- if the maximum is the zero it started from, every number is that zero
    obtain ⟨x, hx⟩ := List.exists_mem_of_ne_nil xs hne
    have hle := hbound x (List.mem_cons_of_mem 0 hx)
    rw [hzero] at hle ⊢
    rcases hxs x hx with rfl | hpos
    · exact hx
    · exact absurd hpos (Double.not_lt_of_le hle)
  · exact hmem

/-! ## The metrics of a record

Metrics are worked out of the curve, the timestamps and the trades of a record. A curve without
points gives metrics of nothing but zeros, which agree as well, as there are no trades then. -/

namespace Metrics

variable {α : Type} [Scalar α] [RootPower α]

theorem ofRecord_of_empty {r : RunRecord α} (hcurve : r.curve = []) : ofRecord r = zero := by
  unfold ofRecord analyze
  rw [hcurve]
  rfl

theorem analyze_of_curve {curve : List (EquityPoint α)} {timestamps : List Int}
    (hcurve : curve ≠ []) (htimes : timestamps.length = curve.length) :
    ∃ finalEquity first last, (curve.map EquityPoint.equity).getLast? = some finalEquity ∧
      ∀ trades initialCapital, analyze curve timestamps trades initialCapital =
        ofCurve (curve.map EquityPoint.equity) finalEquity timestamps first last trades
          initialCapital := by
  have hequity : curve.map EquityPoint.equity ≠ [] := by simpa using hcurve
  have hne : timestamps ≠ [] := by
    intro hnil
    rw [hnil] at htimes
    exact hcurve (List.eq_nil_of_length_eq_zero htimes.symm)
  refine ⟨(curve.map EquityPoint.equity).getLast hequity, timestamps.head hne,
    timestamps.getLast hne, List.getLast?_eq_some_getLast hequity, ?_⟩
  intro trades initialCapital
  have hlength : (curve.map EquityPoint.equity).length = timestamps.length := by
    rw [List.length_map, htimes]
  unfold analyze
  simp only [List.getLast?_eq_some_getLast hequity, List.head?_eq_some_head hne,
    List.getLast?_eq_some_getLast hne, hlength, if_true]

theorem ofRecord_of_curve {r : RunRecord α} (hcurve : r.curve ≠ [])
    (htimes : r.timestamps.length = r.curve.length) :
    ∃ finalEquity first last, r.equityValues.getLast? = some finalEquity ∧
      ofRecord r = ofCurve r.equityValues finalEquity r.timestamps first last r.trades
        r.initialCapital := by
  obtain ⟨finalEquity, first, last, hlast, hmetrics⟩ := analyze_of_curve hcurve htimes
  exact ⟨finalEquity, first, last, hlast, hmetrics r.trades r.initialCapital⟩

theorem maxDrawdown_ofRecord {r : RunRecord α} (htimes : r.timestamps.length = r.curve.length) :
    (ofRecord r).maxDrawdown = MarketReplay.maxDrawdown r.equityValues := by
  by_cases hcurve : r.curve = []
  · rw [ofRecord_of_empty hcurve, RunRecord.equityValues, hcurve]
    rfl
  · obtain ⟨finalEquity, first, last, -, hmetrics⟩ := ofRecord_of_curve hcurve htimes
    rw [hmetrics]
    rfl

theorem counts_ofRecord {r : RunRecord α} (htimes : r.timestamps.length = r.curve.length)
    (hempty : r.curve = [] → r.trades = []) :
    (ofRecord r).totalTrades = r.closedTrades.length ∧
      (ofRecord r).winningTrades = r.closedTrades.countP (fun t => isWin t.realizedPnl) ∧
      (ofRecord r).losingTrades =
        r.closedTrades.countP (fun t => TradeStatistics.countsAsLoss t.realizedPnl) := by
  by_cases hcurve : r.curve = []
  · rw [ofRecord_of_empty hcurve, RunRecord.closedTrades, hempty hcurve]
    exact ⟨rfl, rfl, rfl⟩
  · obtain ⟨finalEquity, first, last, -, hmetrics⟩ := ofRecord_of_curve hcurve htimes
    rw [hmetrics]
    exact TradeStatistics.counts_ofTrades r.trades

end Metrics

/-- What a record and metrics say in common, and the book that the run leaves with the closing price
of its last bar. The return agrees when it is finite: one that is not is held within the finite
numbers by the metrics and not by the record. -/
structure Metrics.AgreesWith (m : Metrics Float) (r : RunRecord Float) (book : Portfolio Float)
    (closing? : Option Float) : Prop where
  totalTrades : m.totalTrades = r.totalTrades
  winningTrades : m.winningTrades = r.winningTrades
  losingTrades : m.losingTrades = r.losingTrades
  closedTrades : r.closedTrades.length = r.totalTrades
  drawdowns : drawdowns r.equityValues = r.curve.map EquityPoint.drawdown
  maxDrawdown : IsLargest m.maxDrawdown (r.curve.map EquityPoint.drawdown)
  cumulativeReturn : Scalar.isFinite r.totalReturn = true → 0 < r.barsProcessed →
    m.cumulativeReturn = r.totalReturn
  open_iff : r.openTrade?.isSome = true ↔ book.hasPosition = true
  equity_of_open : ∀ t, r.openTrade? = some t → ∃ closing, closing? = some closing ∧
    r.finalEquity = r.finalCapital + t.quantity * closing
  equity_of_closed : r.openTrade? = none → Double.Same r.finalEquity r.finalCapital

section agreement

variable {σ : Type} {source : SignalSource Float σ} {costs : AccountSettings Float} {state : σ}
  {bars : List (Bar Float)} {last : Session Float σ}

/-- An account that passes its check has capital. The return divides by it, in the record and in the
metrics. -/
theorem initialCapital_pos (hcosts : costs.check = .ok ()) : 0 < costs.initialCapital := by
  unfold AccountSettings.check at hcosts
  split at hcosts
  · rename_i h
    exact h.2
  · cases hcosts

/-- The final equity of a run that processed a bar stands last in its curve. -/
theorem finalEquity_toRecord {completed : Bool} {finalEquity : Float}
    (hlast : (last.toRecord costs completed).equityValues.getLast? = some finalEquity) :
    (last.toRecord costs completed).finalEquity = finalEquity := by
  unfold RunRecord.equityValues at hlast
  rw [Session.toRecord_curve, List.map_reverse, List.getLast?_reverse, List.head?_map] at hlast
  unfold Session.toRecord
  cases hcurve : last.curve with
  | nil =>
    rw [hcurve] at hlast
    cases hlast
  | cons point rest =>
    rw [hcurve] at hlast
    exact Option.some.inj hlast

theorem equityValues_toRecord (completed : Bool) :
    (last.toRecord costs completed).equityValues = equities last.curve := by
  rw [RunRecord.equityValues, Session.toRecord_curve, List.map_reverse, equities]

theorem trades_of_empty {completed : Bool}
    (hwalk : (Session.start costs (source.reset state)).walk source costs bars = (last, none))
    (hcurve : (last.toRecord costs completed).curve = []) :
    (last.toRecord costs completed).trades = [] := by
  have hlength := length_curve hwalk
  rw [Session.toRecord_curve, List.reverse_eq_nil_iff] at hcurve
  rw [hcurve] at hlength
  rw [List.eq_nil_of_length_eq_zero hlength.symm, Session.walk_nil] at hwalk
  cases hwalk
  rfl

theorem cumulativeReturn_ofRecord {r : RunRecord Float}
    (htimes : r.timestamps.length = r.curve.length) (hcapital : 0 < r.initialCapital)
    (hequity : ∀ e, r.equityValues.getLast? = some e → r.finalEquity = e)
    (hreturn : r.totalReturn = r.finalEquity / r.initialCapital - 1)
    (hfinite : Scalar.isFinite r.totalReturn = true) (hcurve : r.curve ≠ []) :
    (Metrics.ofRecord r).cumulativeReturn = r.totalReturn := by
  obtain ⟨finalEquity, first, last, hlast, hmetrics⟩ := Metrics.ofRecord_of_curve hcurve htimes
  have hgrowth : Metrics.totalGrowth r.initialCapital finalEquity = r.totalReturn := by
    rw [hreturn, hequity finalEquity hlast]
    exact if_pos hcapital
  rw [hmetrics]
  show Scalar.bounded (Metrics.totalGrowth r.initialCapital finalEquity) = r.totalReturn
  rw [hgrowth, Double.bounded_of_isFinite hfinite]

/-- While something is held, the final equity is the cash and the position at the last price, as
doubles, with the roundings that the book makes. -/
theorem finalEquity_of_held {held : Position Float}
    (hwalk : (Session.start costs (source.reset state)).walk source costs bars = (last, none))
    (hheld : last.book.position = some held) (completed : Bool) :
    ∃ closing, bars.getLast?.map Bar.closing = some closing ∧
      (last.toRecord costs completed).finalEquity =
        (last.toRecord costs completed).finalCapital + held.openTrade.quantity * closing := by
  cases hlast : bars.getLast? with
  | none =>
    rw [List.getLast?_eq_none_iff.mp hlast, Session.walk_nil] at hwalk
    cases hwalk
    cases hheld
  | some bar =>
    refine ⟨bar.closing, rfl, ?_⟩
    rw [finalEquity_eq hwalk hlast, Portfolio.equity, hheld]
    rfl

theorem finalEquity_of_flat
    (hwalk : (Session.start costs (source.reset state)).walk source costs bars = (last, none))
    (hflat : last.book.position = none) (completed : Bool) :
    Double.Same (last.toRecord costs completed).finalEquity
      (last.toRecord costs completed).finalCapital := by
  cases hlast : bars.getLast? with
  | none =>
    rw [List.getLast?_eq_none_iff.mp hlast, Session.walk_nil] at hwalk
    cases hwalk
    exact .refl _
  | some bar =>
    rw [finalEquity_eq hwalk hlast, Portfolio.equity, hflat]
    exact Double.same_add_zero _

end agreement

/-- **The metrics of a run agree with its record**, for every run on doubles. Closed trades, wins
and losses are counted alike; the drawdowns in the record are those of its equities, and the largest
of them is the one of the metrics; the return is the same, if it is finite. The run ends with an
open trade exactly if its book holds a position, and its final equity is then the cash and what this
is worth at the last closing price, or else the cash. -/
theorem metrics_agree {σ : Type} (source : SignalSource Float σ) (costs : AccountSettings Float)
    (limit : Option Nat) (bars : List (Bar Float)) (state : σ) (r : RunRecord Float)
    (hcosts : costs.check = .ok ()) (hrun : (replay source costs limit bars state).2 = .ok r) :
    let processed := bars.take r.barsProcessed
    (Metrics.ofRecord r).AgreesWith r (bookAfter source costs state processed)
      (processed.getLast?.map Bar.closing) := by
  intro processed
  obtain ⟨-, -, last, hwalk, hr⟩ := replay_eq_ok_iff.mp hrun
  -- everything is about the bars up to the limit, as many as the record counts
  have hprocessed : processed = reached limit bars := by
    have hlength : r.barsProcessed = (reached limit bars).length := by
      rw [hr, Session.toRecord_barsProcessed, length_curve hwalk]
    show bars.take r.barsProcessed = _
    rw [hlength, ← reached_eq_take]
  have hbook : bookAfter source costs state processed = last.book := by
    rw [hprocessed, bookAfter, sessionAfter_eq hwalk]
  have htimes : r.timestamps.length = r.curve.length := by
    rw [hr, Session.toRecord_timestamps, Session.toRecord_curve, List.length_map]
  obtain ⟨htotal, hwinning, hlosing⟩ :=
    Metrics.counts_ofRecord htimes (hr ▸ trades_of_empty hwalk)
  -- the log of every run repeats the position
  have hopen : r.openTrade? = last.book.position.map Position.openTrade :=
    hr ▸ openTrade?_toRecord (kept_and_dated hwalk).1 _
  have hdrawdowns : MarketReplay.drawdowns r.equityValues = r.curve.map EquityPoint.drawdown := by
    rw [hr, equityValues_toRecord, (drawdowns_walk hwalk).2, Session.toRecord_curve,
      List.map_reverse]
  rw [hbook, hprocessed]
  constructor
  case totalTrades => rw [htotal, hr]; rfl
  case winningTrades => rw [hwinning, hr]; rfl
  case losingTrades =>
    simp only [hlosing, countsAsLoss_eq]
    rw [hr]
    rfl
  case closedTrades => rw [hr]; rfl
  case drawdowns => exact hdrawdowns
  case maxDrawdown =>
    rw [Metrics.maxDrawdown_ofRecord htimes, ← hdrawdowns]
    exact isLargest_foldl_max fun x hx => drawdownsAfter_cases hx
  case cumulativeReturn =>
    intro hfinite hpos
    refine cumulativeReturn_ofRecord htimes ?_ ?_ ?_ hfinite ?_
    · rw [hr]
      exact initialCapital_pos hcosts
    · rw [hr]
      exact fun e => finalEquity_toRecord
    · rw [hr]
      rfl
    · rw [hr] at hpos ⊢
      exact List.ne_nil_of_length_pos hpos
  case open_iff =>
    rw [hopen, Option.isSome_map]
    rfl
  case equity_of_open =>
    intro t ht
    obtain ⟨held, hheld, rfl⟩ := Option.map_eq_some_iff.mp (hopen.symm.trans ht)
    rw [hr]
    exact finalEquity_of_held hwalk hheld _
  case equity_of_closed =>
    intro hnone
    rw [hr]
    exact finalEquity_of_flat hwalk (Option.map_eq_none_iff.mp (hopen.symm.trans hnone)) _

/-- Bars with a loss, a recovery and another loss. -/
def dippingBars : List (Bar Float) :=
  [100, 80, 120, 90, 95].zipIdx.map fun (price, i) => .ofPrices (i : Int) price price price price 1

/-- Buys at the first bar, sells at the third and buys again at the fourth. -/
def inAndOut : SignalSource Float Unit where
  name := "in_and_out"
  warmup := 0
  positionSize := 0.5
  reset := id
  signalFor := fun _ bars =>
    ((), ⟨bars.size, [Action.buy, .hold, .sell, .buy].getD (bars.size - 1) .hold⟩)

/-- A run that is stopped one bar early, with a closed trade that won and an open one. -/
theorem metrics_agree_sample :
    ∃ r, (replay inAndOut .usual (some 4) dippingBars ()).2 = .ok r ∧
      (Metrics.ofRecord r).winningTrades = 1 ∧
      (∃ point ∈ r.curve, 0 < point.drawdown ∧
        point.drawdown ≤ (Metrics.ofRecord r).maxDrawdown) ∧
      (Metrics.ofRecord r).cumulativeReturn = r.totalReturn ∧
      ∃ t closing, r.openTrade? = some t ∧
        r.finalEquity = r.finalCapital + t.quantity * closing := by
  have hvalues : (replay inAndOut .usual (some 4) dippingBars ()).2.toOption.map
      (fun r => (r.winningTrades, r.barsProcessed, Scalar.isFinite r.totalReturn,
        r.openTrade?.isSome, r.curve.any fun point => decide (0 < point.drawdown))) =
      some (1, 4, true, true, true) := by
    decide +kernel
  cases hrun : (replay inAndOut .usual (some 4) dippingBars ()).2 with
  | error fault =>
    rw [hrun] at hvalues
    cases hvalues
  | ok r =>
    rw [hrun] at hvalues
    simp only [Except.toOption, Option.map_some, Option.some.injEq, Prod.mk.injEq] at hvalues
    obtain ⟨hwinning, hprocessed, hfinite, hopen, hdrawdown⟩ := hvalues
    have hagree := metrics_agree inAndOut .usual (some 4) dippingBars () r (by decide +kernel) hrun
    obtain ⟨point, hpoint, hpos⟩ := List.any_eq_true.mp hdrawdown
    obtain ⟨t, ht⟩ := Option.isSome_iff_exists.mp hopen
    obtain ⟨closing, -, hequity⟩ := hagree.equity_of_open t ht
    exact ⟨r, rfl, hagree.winningTrades.trans hwinning,
      ⟨point, hpoint, of_decide_eq_true hpos, hagree.maxDrawdown.le _ (List.mem_map_of_mem hpoint)⟩,
      hagree.cumulativeReturn hfinite (by rw [hprocessed]; decide), t, closing, ht, hequity⟩

end MarketReplay
