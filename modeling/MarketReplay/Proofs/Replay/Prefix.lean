import MarketReplay.Proofs.Replay.Money

/-!
# Runs that stop early

A run that is stopped leaves exactly what the full run had at that place, and what a run over the
shorter series leaves. Nothing here rests on a law of numbers: the runs being compared apply the
same operations to the same values, so that the statements hold of floats bit for bit.

The runs need not start from the same state of the source. What they need is that the source
answers by the bars it is shown, once it has been reset (`SignalSource.AnswersBy`); then two
sessions that differ in the state of the source and in nothing else stay so
(`Session.walk_agrees`).

What has to be undone is in the log alone: the trade that is open when the run stops may be
completed later in the full run. `log_at_bar` says that nothing else of the log changes.
-/

set_option autoImplicit false

namespace MarketReplay

variable {α σ τ : Type} [Scalar α]

/-! ## Sessions that differ in the state of the source

The states of two sources, or of one source used in two ways, have nothing in common in general.
What two runs can have in common is everything else, as long as the answers are the same. -/

namespace Session

/-- Everything but the source is the same. The bars seen are not part of it: they matter to the
answers alone, and these are compared as such. -/
structure Agrees (s : Session α σ) (t : Session α τ) : Prop where
  book_eq : s.book = t.book
  peak_eq : s.peak = t.peak
  curve_eq : s.curve = t.curve

variable {source₁ : SignalSource α σ} {source₂ : SignalSource α τ} {costs : AccountSettings α}
  {s : Session α σ} {t : Session α τ}

theorem Agrees.toRecord_eq (h : s.Agrees t) (completed : Bool) :
    s.toRecord costs completed = t.toRecord costs completed := by
  unfold toRecord
  rw [h.book_eq, h.curve_eq]

theorem Agrees.record {bar : Bar α} (h : s.Agrees t) : (s.record bar).Agrees (t.record bar) := by
  obtain ⟨hbook, hpeak, hcurve⟩ := h
  constructor
  · exact hbook
  · simp only [Session.record, hbook, hpeak]
  · simp only [Session.record, hbook, hpeak, hcurve]

theorem step_agrees (costs : AccountSettings α) {bar : Bar α}
    (hsize : source₁.positionSize = source₂.positionSize)
    (h : s.Agrees t) (haction : (s.ask source₁ bar).2 = (t.ask source₂ bar).2) :
    (s.step source₁ costs bar).2 = (t.step source₂ costs bar).2 ∧
      (s.step source₁ costs bar).1.Agrees (t.step source₂ costs bar).1 := by
  have hbook : (s.ask source₁ bar).1.book = (t.ask source₂ bar).1.book := h.book_eq
  unfold step
  simp only [haction, hsize, hbook]
  cases act costs source₂.positionSize (t.ask source₂ bar).2 bar (t.ask source₂ bar).1.book with
  | error fault => exact ⟨rfl, h.book_eq, h.peak_eq, h.curve_eq⟩
  | ok book => exact ⟨rfl, Agrees.record ⟨rfl, h.peak_eq, h.curve_eq⟩⟩

/-- **At the same answers, sessions that agree stay in agreement.** The two walks fail together,
too, since a step fails by its book and its bar. -/
theorem walk_agrees (costs : AccountSettings α)
    (hsize : source₁.positionSize = source₂.positionSize) :
    ∀ (bars : List (Bar α)) {s : Session α σ} {t : Session α τ}, s.Agrees t →
      (source₁.signalsAfter s.seen s.state bars).2 =
        (source₂.signalsAfter t.seen t.state bars).2 →
      (s.walk source₁ costs bars).2 = (t.walk source₂ costs bars).2 ∧
        (s.walk source₁ costs bars).1.Agrees (t.walk source₂ costs bars).1 := by
  intro bars
  induction bars with
  | nil =>
    intro s t h _
    exact ⟨rfl, h⟩
  | cons bar rest ih =>
    intro s t h hanswers
    simp only [SignalSource.signalsAfter, List.cons.injEq] at hanswers
    obtain ⟨hfirst, hrest⟩ := hanswers
    obtain ⟨hfault, hnext⟩ := step_agrees costs hsize h
      (show (s.ask source₁ bar).2 = (t.ask source₂ bar).2 from congrArg Signal.action hfirst)
    -- the two steps fail together or succeed together
    rcases hs : s.step source₁ costs bar with ⟨s₁, _ | fault⟩ <;>
      rcases ht : t.step source₂ costs bar with ⟨t₁, _ | fault'⟩ <;>
      rw [hs, ht] at hfault hnext
    · rw [walk_cons_of_ok hs, walk_cons_of_ok ht]
      apply ih hnext
      rw [state_step hs, seen_step hs, state_step ht, seen_step ht]
      exact hrest
    · cases hfault
    · cases hfault
    · rw [walk_cons_of_fault hs, walk_cons_of_fault ht]
      exact ⟨hfault, hnext⟩

end Session

/-! ## Runs that stop early

A run with a limit, a run over a shorter series and the first bars of a full run are three ways to
the same session. -/

section run

variable {source : SignalSource α σ} {costs : AccountSettings α} {answer : List (Bar α) → Signal}
  {state state' : σ} {bars : List (Bar α)}

/-- The states that a source may be in before a run do not show in the run. The two runs end in
sessions that agree in everything but the state of the source. -/
theorem walk_of_answersBy (h : source.AnswersBy answer state) (h' : source.AnswersBy answer state')
    {last : Session α σ}
    (hwalk : (Session.start costs (source.reset state)).walk source costs bars = (last, none)) :
    ∃ last', (Session.start costs (source.reset state')).walk source costs bars = (last', none) ∧
      last'.Agrees last := by
  have hstart : (Session.start costs (source.reset state')).Agrees
      (Session.start costs (source.reset state)) := ⟨rfl, rfl, rfl⟩
  obtain ⟨hfault, hagrees⟩ :=
    Session.walk_agrees costs rfl bars hstart (h'.signals_eq h bars)
  rw [hwalk] at hfault hagrees
  exact ⟨_, Prod.ext rfl hfault, hagrees⟩

/-- What a run that is stopped after some bars returns, from another state of the source. The whole
series has been checked by then, so that no bars may be out of order even behind the place where it
stops. -/
theorem replay_stopped (h : source.AnswersBy answer state) (h' : source.AnswersBy answer state')
    (hbars : Chronological bars) (hwarmup : source.warmup ≤ bars.length) {last : Session α σ}
    (hwalk : (Session.start costs (source.reset state)).walk source costs bars = (last, none))
    (n : Nat) :
    (replay source costs (some n) bars state').2 =
      .ok ((sessionAfter source costs state (bars.take n)).toRecord costs
        ((bars.take n).length == bars.length)) := by
  obtain ⟨last', hwalk', hagrees⟩ := walk_of_answersBy h h' (walk_take hwalk n).1
  rw [replay_eq_ok_iff]
  exact ⟨hbars, hwarmup, last', hwalk', (hagrees.toRecord_eq _).symm⟩

/-- What a run over the first bars returns, from another state of the source. It counts as
completed, and the first bars have to be enough for the source, which a run that is stopped does not
ask. -/
theorem replay_take (h : source.AnswersBy answer state) (h' : source.AnswersBy answer state')
    (hbars : Chronological bars) {n : Nat} (hwarmup : source.warmup ≤ (bars.take n).length)
    {last : Session α σ}
    (hwalk : (Session.start costs (source.reset state)).walk source costs bars = (last, none)) :
    (replay source costs none (bars.take n) state').2 =
      .ok ((sessionAfter source costs state (bars.take n)).toRecord costs true) := by
  obtain ⟨last', hwalk', hagrees⟩ := walk_of_answersBy h h' (walk_take hwalk n).1
  rw [replay_eq_ok_iff]
  refine ⟨hbars.take n, hwarmup, last', hwalk', ?_⟩
  rw [← hagrees.toRecord_eq, show (reached none (bars.take n)).length == (bars.take n).length from
    beq_self_eq_true _]

/-- **A run that is stopped while a bar is handled returns what the full run had at that bar**: the
curve and the timestamps up to it, and the trades entered by then, an exit after the bar undone.
Once the bars up to it are enough for the source, that is what the run over these bars returns. A
run that is stopped before the first bar returns the capital it began with.

The three runs may find their source in three different states, as long as it answers by the
bars. -/
theorem stopped_run_agrees_with_full (source : SignalSource α σ) (costs : AccountSettings α)
    (answer : List (Bar α) → Signal) (state state' state'' : σ) (bars : List (Bar α))
    (full : RunRecord α) (hstate : source.AnswersBy answer state)
    (hstate' : source.AnswersBy answer state') (hstate'' : source.AnswersBy answer state'')
    (hfull : (replay source costs none bars state).2 = .ok full) :
    (∀ (k : Nat) (bar : Bar α), bars[k]? = some bar →
      ∃ part, (replay source costs (some (k + 1)) bars state').2 = .ok part ∧
        part.barsProcessed = k + 1 ∧
        part.curve = full.curve.take (k + 1) ∧
        part.timestamps = full.timestamps.take (k + 1) ∧
        part.trades = logAsOf costs.commissionRate bar.timestamp full.trades ∧
        (source.warmup ≤ k + 1 →
          (replay source costs none (bars.take (k + 1)) state'').2 =
            .ok { part with completed := true })) ∧
    ∃ part, (replay source costs (some 0) bars state').2 = .ok part ∧
      part.curve = [] ∧ part.timestamps = [] ∧ part.trades = [] ∧
      part.initialCapital = costs.initialCapital ∧
      part.finalEquity = part.initialCapital ∧ part.finalCapital = part.initialCapital := by
  obtain ⟨hbars, hwarmup, last, hwalk, rfl⟩ := replay_eq_ok_iff.mp hfull
  rw [show reached none bars = bars from rfl] at hwalk
  constructor
  · intro k bar hbar
    have hlt : k < bars.length := (List.getElem?_eq_some_iff.mp hbar).1
    have hlength : (bars.take (k + 1)).length = k + 1 := List.length_take_of_le hlt
    refine ⟨_, replay_stopped hstate hstate' hbars hwarmup hwalk (k + 1), ?_, ?_, ?_, ?_, ?_⟩
    · rw [Session.toRecord_barsProcessed, length_curve (walk_take hwalk (k + 1)).1, hlength]
    · exact curve_take hwalk (k + 1)
    · simp only [Session.toRecord_timestamps, curve_take hwalk (k + 1), List.map_take]
    · -- the log keeps the newest trade first, a record the oldest
      simp only [Session.toRecord_trades, ← reverse_logAsOf, (log_at_bar hbars hwalk hbar).1]
      rfl
    · intro henough
      exact replay_take hstate hstate'' hbars (by omega) hwalk
  · exact ⟨_, replay_stopped hstate hstate' hbars hwarmup hwalk 0, rfl, rfl, rfl, rfl, rfl, rfl⟩

end run

/-- The sample run stopped at its third bar, with an object that has been called before: the trade
that the full run closes at the next bar is open. -/
theorem stopped_run_agrees_with_full_sample :
    let used := sampleRule.source.afterCalls sampleBars sampleRule.fresh sampleCalls
    (∃ answer, sampleRule.source.AnswersBy answer sampleRule.fresh ∧
      sampleRule.source.AnswersBy answer used) ∧
    ∃ full part,
      (replay sampleRule.source .usual none sampleBars sampleRule.fresh).2 = .ok full ∧
      (replay sampleRule.source .usual (some 3) sampleBars used).2 = .ok part ∧
      part.curve = full.curve.take 3 ∧
      part.trades = logAsOf AccountSettings.usual.commissionRate 2 full.trades ∧
      full.trades.map Trade.isClosed = [true, false] ∧ part.trades.map Trade.isClosed = [false] ∧
      (replay sampleRule.source .usual none (sampleBars.take 3) used).2 =
        .ok { part with completed := true } := by
  intro used
  have hR := AverageCross.bisimulation (⟨1, 2, 1 / 2⟩ : CrossSettings ℚ)
  have hfresh : sampleRule.source.AnswersBy sampleRule.answer sampleRule.fresh :=
    PriceRule.answersBy hR (PriceRule.fresh_saw hR)
  have hused : sampleRule.source.AnswersBy sampleRule.answer used := by
    have hnil : [] <+: sampleBars := List.nil_prefix
    obtain ⟨past, -, hsaw⟩ :=
      PriceRule.afterCalls_saw hR sampleCalls (PriceRule.fresh_saw hR) hnil
    exact PriceRule.answersBy hR hsaw
  refine ⟨⟨_, hfresh, hused⟩, ?_⟩
  have hshape : (replay sampleRule.source .usual none sampleBars sampleRule.fresh).2.toOption.map
      (fun r => (r.trades.map Trade.isClosed,
        (logAsOf AccountSettings.usual.commissionRate 2 r.trades).map Trade.isClosed)) =
      some ([true, false], [false]) := by
    decide +kernel
  cases hfull : (replay sampleRule.source .usual none sampleBars sampleRule.fresh).2 with
  | error fault =>
    rw [hfull] at hshape
    cases hshape
  | ok full =>
    rw [hfull] at hshape
    simp only [Except.toOption, Option.map_some, Option.some.injEq, Prod.mk.injEq] at hshape
    obtain ⟨part, hpart, -, hcurve, -, htrades, hshort⟩ :=
      (stopped_run_agrees_with_full sampleRule.source .usual _ _ used used sampleBars full hfresh
        hused hused hfull).1 2 (.ofPrices 2 12 12 12 12 1) (by decide +kernel)
    exact ⟨full, part, rfl, hpart, hcurve, htrades, hshape.1, htrades ▸ hshape.2,
      hshort (by decide +kernel)⟩

end MarketReplay
