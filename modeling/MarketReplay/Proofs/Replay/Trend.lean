import MarketReplay.Proofs.Performance.Agreement
import MarketReplay.Proofs.Replay.Accounting
import MarketReplay.Proofs.Replay.Record
import MarketReplay.Proofs.Strategy.Trend

/-!
# Runs along a trend

What a run comes to when one of the answers never comes, for every source. Without a sell no trade
is left, and since a trade is left before the next one is entered there is at most one
(`replay_of_never_sold`). Without a buy nothing ever moves (`replay_of_never_bought`): the invariant
is that the book is the one at the start, and every point of the curve shows the capital
(`Session.Idle`).

**`trends_hold_course`**: over the rationals these are the runs of crossing averages along closing
prices that never fall, and along closing prices that never rise.
-/

set_option autoImplicit false

namespace MarketReplay

variable {α σ : Type}

/-! ## Runs without a sell

This half needs no arithmetic: it follows from what trades have to do with events, for numbers of
any kind. -/

theorem exists_signal_of_answered {source : SignalSource α σ} {state : σ} {bars : List (Bar α)}
    {event : Bar α × Action} (hevent : event ∈ answered source state bars) :
    ∃ signal ∈ (source.signals state bars).2, signal.action = event.2 :=
  List.mem_map.mp (List.of_mem_zip hevent).2

theorem Trade.Spans.of_never_sold {t : Trade α} {events : List (Bar α × Action)}
    (h : t.Spans events) (hnever : ∀ event ∈ events, event.2 ≠ .sell) : t.isClosed = false := by
  cases hexit : t.exitTimestamp with
  | none => rw [Trade.isClosed, hexit, Option.isSome_none]
  | some exit =>
    unfold Trade.Spans at h
    rw [hexit] at h
    obtain ⟨before, entry, after, rfl, -, between, leaving, rest, rfl, -, -⟩ := h
    exact absurd rfl (hnever (leaving, .sell) (by simp))

/-- All trades but the last are closed, so that there are none. -/
theorem RunRecord.Traced.of_never_sold [Scalar α] {r : RunRecord α}
    {events : List (Bar α × Action)} (h : r.Traced events)
    (hnever : ∀ event ∈ events, event.2 ≠ .sell) :
    r.closedTrades = [] ∧ r.trades.length ≤ 1 ∧ ∀ t ∈ r.trades, r.openTrade? = some t := by
  have hopen : ∀ t ∈ r.trades, t.isClosed = false := fun t ht => (h.spans t ht).of_never_sold hnever
  -- a trade in front of the last is closed by its place, and open by the answers
  have hnone : r.trades.dropLast = [] := by
    refine List.eq_nil_iff_forall_not_mem.mpr fun t ht => ?_
    have hclosed := h.closed t ht
    rw [hopen t (List.mem_of_mem_dropLast ht)] at hclosed
    cases hclosed
  have hlength : r.trades.length ≤ 1 := by
    have hzero := congrArg List.length hnone
    rw [List.length_dropLast, List.length_nil] at hzero
    omega
  refine ⟨?_, hlength, ?_⟩
  · exact List.filter_eq_nil_iff.mpr fun t ht => by rw [hopen t ht]; exact Bool.false_ne_true
  · intro t ht
    obtain ⟨only, honly⟩ := List.length_eq_one_iff.mp
      (Nat.le_antisymm hlength (List.length_pos_of_mem ht))
    rw [honly, List.mem_singleton] at ht
    subst ht
    have hlast := hopen t (by rw [honly]; exact List.mem_cons_self)
    rw [RunRecord.openTrade?, honly, List.getLast?_singleton]
    exact if_neg (by rw [hlast]; exact Bool.false_ne_true)

/-- **A run that is never told to sell closes no trade**, and enters one at most. A second entry
would need the book flat again, and only a sale does that. -/
theorem replay_of_never_sold [Scalar α] {source : SignalSource α σ} {costs : AccountSettings α}
    {limit : Option Nat} {bars : List (Bar α)} {state : σ} {r : RunRecord α}
    (hnever : ∀ signal ∈ (source.signals state (reached limit bars)).2, signal.action ≠ .sell)
    (hrun : (replay source costs limit bars state).2 = .ok r) :
    r.closedTrades = [] ∧ r.trades.length ≤ 1 ∧ ∀ t ∈ r.trades, r.openTrade? = some t := by
  refine (traced_of_replay hrun).of_never_sold fun event hevent => ?_
  obtain ⟨signal, hsignal, haction⟩ := exists_signal_of_answered hevent
  rw [← haction]
  exact hnever signal hsignal

/-! ## Runs without a buy

This half needs a little: the equity of a flat book is its cash, and its drawdown is none. -/

/-- Nothing has happened to the capital: the book is the one of the start, and every point of the
curve says so. -/
structure Session.Idle (costs : AccountSettings ℚ) (s : Session ℚ σ) : Prop where
  book_eq : s.book = Portfolio.ofCapital costs.initialCapital
  equity_eq : ∀ point ∈ s.curve, point.equity = costs.initialCapital

section idle

variable {source : SignalSource ℚ σ} {costs : AccountSettings ℚ} {state : σ}
  {bars : List (Bar ℚ)} {bar : Bar ℚ} {s s' last : Session ℚ σ}

/-- **A bar that does not say buy leaves the capital alone.** A sale finds nothing to sell. -/
theorem Session.Idle.step (h : s.Idle costs) (hstep : s.step source costs bar = (s', none))
    (hanswer : (s.ask source bar).2 ≠ .buy) : s'.Idle costs := by
  have hflat : s.book.position = none := by rw [h.book_eq]; rfl
  have hbook : s'.book = s.book := by
    have hmove := Session.movement_step hstep
    -- the book behind the step is a variable, or the cases could not be told apart
    generalize s'.book = after at hmove
    cases hmove with
    | idle => rfl
    | entry hbuy _ _ _ => exact absurd hbuy hanswer
    | exit held _ hheld =>
      rw [hflat] at hheld
      cases hheld
  refine ⟨hbook.trans h.book_eq, ?_⟩
  rw [Session.curve_step hstep]
  intro point hpoint
  rcases List.mem_cons.mp hpoint with rfl | hpoint
  · show s'.book.equity bar.closing = _
    rw [hbook, equity_of_flat hflat, h.book_eq]
    rfl
  · exact h.equity_eq point hpoint

theorem idle_of_never_bought
    (hwalk : (Session.start costs (source.reset state)).walk source costs bars = (last, none))
    (hnever : ∀ event ∈ answered source state bars, event.2 ≠ .buy) : last.Idle costs := by
  suffices (Session.start costs (source.reset state)).walk source costs bars = (last, none) ∧
      last.Idle costs from this.2
  -- that the session is the one after the bars so far goes along, for the events
  refine Session.walk_invariant
    (P := fun past s =>
      (Session.start costs (source.reset state)).walk source costs past = (s, none) ∧
        s.Idle costs) ⟨Session.walk_nil, rfl, nofun⟩ ?_ hwalk
  rintro past bar rest s s' hsplit ⟨hpast, hidle⟩ hstep
  have hevent := answered_at hpast bar rest
  rw [← hsplit] at hevent
  exact ⟨Session.walk_concat hpast hstep,
    hidle.step hstep (hnever _ (List.mem_of_getElem? hevent))⟩

theorem Session.Idle.toRecord (h : last.Idle costs) (hcapital : 0 < costs.initialCapital)
    (completed : Bool) :
    let r := last.toRecord costs completed
    r.trades = [] ∧ r.equityValues = List.replicate r.barsProcessed costs.initialCapital ∧
      r.totalReturn = 0 ∧ maxDrawdown r.equityValues = 0 := by
  intro r
  have htrades : r.trades = [] := by
    rw [Session.toRecord_trades, h.book_eq]
    rfl
  have hequity : r.equityValues = List.replicate r.barsProcessed costs.initialCapital := by
    refine List.eq_replicate_iff.mpr ⟨List.length_map .., ?_⟩
    intro equity hequity
    obtain ⟨point, hpoint, rfl⟩ := List.mem_map.mp hequity
    exact h.equity_eq point (List.mem_reverse.mp hpoint)
  -- a record without points shows the capital, and each point does as well
  have hfinal : r.finalEquity = costs.initialCapital := by
    have hpoints := h.equity_eq
    show (last.toRecord costs completed).finalEquity = costs.initialCapital
    unfold Session.toRecord
    cases hcurve : last.curve with
    | nil => rfl
    | cons point rest => exact hpoints point (by rw [hcurve]; exact List.mem_cons_self)
  have hreturn : r.totalReturn = 0 := by
    rw [Session.toRecord_totalReturn, hfinal]
    exact sub_eq_zero.mpr (div_self hcapital.ne')
  refine ⟨htrades, hequity, hreturn, ?_⟩
  rw [hequity]
  -- a constant curve never falls
  refine (maxDrawdown_eq_zero_iff fun e he => ?_).mpr (List.pairwise_replicate.mpr (.inr le_rfl))
  rw [List.eq_of_mem_replicate he]
  exact hcapital.le

/-- **A run that is never told to buy leaves the capital alone.** Every point of the curve shows it,
and so there is no return and no drawdown. -/
theorem replay_of_never_bought {limit : Option Nat} {r : RunRecord ℚ}
    (hcapital : 0 < costs.initialCapital)
    (hnever : ∀ signal ∈ (source.signals state (reached limit bars)).2, signal.action ≠ .buy)
    (hrun : (replay source costs limit bars state).2 = .ok r) :
    r.trades = [] ∧
      r.equityValues = List.replicate (reached limit bars).length costs.initialCapital ∧
      r.totalReturn = 0 ∧ ∀ [RootPower ℚ], (Metrics.ofRecord r).maxDrawdown = 0 := by
  obtain ⟨-, -, last, hwalk, rfl⟩ := replay_eq_ok_iff.mp hrun
  have hidle : last.Idle costs := by
    refine idle_of_never_bought hwalk fun event hevent => ?_
    obtain ⟨signal, hsignal, haction⟩ := exists_signal_of_answered hevent
    rw [← haction]
    exact hnever signal hsignal
  obtain ⟨htrades, hequity, hreturn, hdrawdown⟩ := hidle.toRecord hcapital
    ((reached limit bars).length == bars.length)
  refine ⟨htrades, ?_, hreturn, ?_⟩
  · rw [hequity, Session.toRecord_barsProcessed, length_curve hwalk]
  · intro _
    rw [Metrics.maxDrawdown_ofRecord (List.length_map ..), hdrawdown]

end idle

/-! ## Crossing averages

A rise keeps the fast mean from falling below the slow one, and a fall the other way round, so that
one of the two answers is excluded. The limit of a run does not matter, since the first bars of a
rise are a rise. -/

theorem pairwise_closing_reached {R : α → α → Prop} {bars : List (Bar α)}
    (h : (bars.map Bar.closing).Pairwise R) (limit : Option Nat) :
    ((reached limit bars).map Bar.closing).Pairwise R := by
  rw [reached_eq_take, List.map_take]
  exact h.sublist (List.take_sublist ..)

open AverageCross in
/-- **Along a trend crossing averages do not turn against it**, on settings and costs that pass
their checks. No bar fails a run over bars in order, and

* along closing prices that never fall the rule never sells: a run closes no trade, and the one that
  it may have entered is open at the end;
* along closing prices that never rise it never buys: a run has no trade, the equity is the capital
  after every bar, nothing is gained, and nothing is lost at any time;
* along flat prices, which are both, it holds throughout. -/
theorem trends_hold_course (settings : CrossSettings ℚ) (rule : PriceRule ℚ (State ℚ))
    (hrule : ofSettings settings = .ok rule) (costs : AccountSettings ℚ)
    (hcosts : costs.check = .ok ()) (earlier : List (Bar ℚ)) (calls : List Call)
    (limit : Option Nat) (bars : List (Bar ℚ)) :
    let f := rule.source.afterCalls earlier rule.fresh calls
    let closes := bars.map Bar.closing
    let signals := (rule.source.signals f bars).2
    let run := (replay rule.source costs limit bars f).2
    (Chronological bars → rule.warmup ≤ bars.length → ∃ r, run = .ok r) ∧
      (closes.Pairwise (· ≤ ·) →
        (∀ signal ∈ signals, signal.action ≠ .sell) ∧
          ∀ r, run = .ok r → r.closedTrades = [] ∧ r.trades.length ≤ 1 ∧
            ∀ t ∈ r.trades, r.openTrade? = some t) ∧
      (closes.Pairwise (· ≥ ·) →
        (∀ signal ∈ signals, signal.action ≠ .buy) ∧
          ∀ r, run = .ok r → r.trades = [] ∧
            r.equityValues = List.replicate (reached limit bars).length costs.initialCapital ∧
            r.totalReturn = 0 ∧ ∀ [RootPower ℚ], (Metrics.ofRecord r).maxDrawdown = 0) ∧
      (closes.Pairwise (· = ·) → ∀ signal ∈ signals, signal.action = .hold) := by
  intro f closes signals run
  obtain ⟨hcheck, rfl⟩ := checked_eq_ok_iff.mp hrule
  obtain ⟨hfast, hperiods⟩ := periods_of_check hcheck
  have hvalid := AccountSettings.check_eq_ok_iff.mp hcosts
  have hR := bisimulation settings
  -- whatever was called before, the object has seen bars of one series in order
  obtain ⟨past, -, hf⟩ :=
    PriceRule.afterCalls_saw hR calls (PriceRule.fresh_saw hR) (List.nil_prefix (l := earlier))
  refine ⟨?_, ?_, ?_, ?_⟩
  · intro hbars hwarmup
    have hsize : 0 < (AverageCross.rule settings).source.positionSize ∧
        (AverageCross.rule settings).source.positionSize ≤ 1 := positionSize_of_check hcheck
    obtain ⟨last, hwalk⟩ := walk_succeeds hvalid hsize f (reached limit bars)
    exact ⟨_, replay_eq_ok_iff.mpr ⟨hbars, hwarmup, last, hwalk, rfl⟩⟩
  · intro hrising
    have hreached := never_sells hfast hperiods hf (pairwise_closing_reached hrising limit)
    exact ⟨never_sells hfast hperiods hf hrising, fun r => replay_of_never_sold hreached⟩
  · intro hfalling
    have hreached := never_buys hfast hperiods hf (pairwise_closing_reached hfalling limit)
    exact ⟨never_buys hfast hperiods hf hfalling,
      fun r => replay_of_never_bought hvalid.capital_pos hreached⟩
  · intro hflat signal hsignal
    -- flat prices neither fall nor rise, so that both exclusions hold
    have hsell := never_sells hfast hperiods hf (hflat.imp le_of_eq) signal hsignal
    have hbuy := never_buys hfast hperiods hf (hflat.imp ge_of_eq) signal hsignal
    cases haction : signal.action with
    | buy => exact absurd haction hbuy
    | sell => exact absurd haction hsell
    | hold => rfl

/-- Bars with the given closing prices, one after another. -/
def trendBars (closes : List ℚ) : List (Bar ℚ) :=
  closes.zipIdx.map fun (price, i) => .ofPrices (i : Int) price price price price 1

/-- The sample rule buys into a rise that begins on level ground and stays in. In the fall it does
nothing. -/
theorem trends_hold_course_sample :
    let run := fun closes =>
      (replay sampleRule.source .usual none (trendBars closes) sampleRule.fresh).2
    AverageCross.ofSettings ⟨1, 2, 1 / 2⟩ = .ok sampleRule ∧
      (AccountSettings.usual : AccountSettings ℚ).check = .ok () ∧
      (∃ r, run [10, 10, 11, 13] = .ok r ∧ r.closedTrades = [] ∧ r.trades.length = 1) ∧
      ∃ r, run [13, 11, 10, 10] = .ok r ∧ r.trades = [] ∧ r.totalReturn = 0 := by
  intro run
  have hbought : (run [10, 10, 11, 13]).toOption.map (fun r => r.trades.length) = some 1 := by
    decide +kernel
  obtain ⟨hrises, hrising, -⟩ := trends_hold_course ⟨1, 2, 1 / 2⟩ sampleRule
    ofSettings_sampleRule .usual check_usual [] [] none (trendBars [10, 10, 11, 13])
  obtain ⟨hfalls, -, hfalling, -⟩ := trends_hold_course ⟨1, 2, 1 / 2⟩ sampleRule
    ofSettings_sampleRule .usual check_usual [] [] none (trendBars [13, 11, 10, 10])
  obtain ⟨r, hr⟩ := hrises (by unfold Chronological; decide +kernel) (by decide)
  obtain ⟨r', hr'⟩ := hfalls (by unfold Chronological; decide +kernel) (by decide)
  obtain ⟨hclosed, -, -⟩ := (hrising (by decide +kernel)).2 r hr
  obtain ⟨htrades, -, hreturn, -⟩ := (hfalling (by decide +kernel)).2 r' hr'
  have hone : r.trades.length = 1 := by
    rw [show run [10, 10, 11, 13] = .ok r from hr] at hbought
    exact Option.some.inj hbought
  exact ⟨ofSettings_sampleRule, check_usual, ⟨r, hr, hclosed, hone⟩, r', hr', htrades, hreturn⟩

end MarketReplay
