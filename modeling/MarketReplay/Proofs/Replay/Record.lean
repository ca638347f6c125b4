import MarketReplay.Proofs.Replay.Events
import MarketReplay.Proofs.Strategy.CallOrder

/-!
# What a record says

The record of a run that succeeds, against the events of the run, for numbers of any kind and for
every source.

**`record_shape` is the whole of it**: the record covers the bars processed, one point of the curve
for each (`RunRecord.Covers`); its trades follow from the events, one after another
(`RunRecord.Traced`); a buy that finds the book flat is entered exactly if it comes to a quantity;
and an answer that the book does not act on leaves everything as it was. It might as well have been
hold: a source that says so instead makes the same run, at any choice of such bars.
-/

set_option autoImplicit false

namespace MarketReplay

variable {α σ : Type}

/-! ## Answers without effect

A source that is overruled at some places. What it computes and how its state goes on is as before,
only the answer that is given out is another. -/

namespace SignalSource

/-- The source, with hold for an answer at the chosen places of a series. The timestamp of the
signal stays, and so does the state that the source is left in. -/
def holdingAt (source : SignalSource α σ) (chosen : Nat → Bool) : SignalSource α σ :=
  { source with
    signalFor := fun state bars =>
      let (state, signal) := source.signalFor state bars
      (state, if chosen (bars.size - 1) then .hold signal.timestamp else signal) }

end SignalSource

theorem Session.ask_holdingAt (source : SignalSource α σ) (chosen : Nat → Bool) (s : Session α σ)
    (bar : Bar α) :
    s.ask (source.holdingAt chosen) bar =
      ((s.ask source bar).1, if chosen s.seen.size then .hold else (s.ask source bar).2) := by
  unfold Session.ask SignalSource.holdingAt
  simp only [Array.size_push, Nat.add_sub_cancel]
  cases chosen s.seen.size with
  | true => rfl
  | false => rfl

theorem reached_eq_take (limit : Option Nat) (bars : List (Bar α)) :
    reached limit bars = bars.take (reached limit bars).length := by
  rw [← take_reached (Nat.le_refl _), List.take_length]

variable [Scalar α]

/-- The book acts on the answer: a buy while it is flat, of a quantity that can be bought, or a sell
while something is held. A buy that comes to no quantity has no effect, although the book is
flat. -/
def Acts (costs : AccountSettings α) (size : α) (action : Action) (bar : Bar α)
    (book : Portfolio α) : Prop :=
  (action = .buy ∧ book.position = none ∧ Buyable (entryPosition costs size bar book).quantity) ∨
    (action = .sell ∧ book.position ≠ none)

instance (quantity : α) : Decidable (Buyable quantity) :=
  inferInstanceAs (Decidable (0 < quantity ∧ Scalar.isFinite quantity))

instance (costs : AccountSettings α) (size : α) (action : Action) (bar : Bar α)
    (book : Portfolio α) : Decidable (Acts costs size action bar book) :=
  inferInstanceAs (Decidable (_ ∨ _))

section movement

variable {costs : AccountSettings α} {size : α} {action : Action} {bar : Bar α}
  {p p' : Portfolio α}

theorem Movement.eq_of_not_acts (h : Movement costs size action bar p p')
    (hacts : ¬Acts costs size action bar p) : p' = p := by
  cases h with
  | idle => rfl
  | entry hbuy hflat hbuyable _ => exact absurd (.inl ⟨hbuy, hflat, hbuyable⟩) hacts
  | exit held hsell hheld =>
    refine absurd (.inr ⟨hsell, ?_⟩) hacts
    rw [hheld]
    exact Option.some_ne_none held

theorem Movement.hold (costs : AccountSettings α) (size : α) (bar : Bar α) (p : Portfolio α) :
    Movement costs size .hold bar p p :=
  .idle (fun h => by cases h) (fun h => by cases h)

/-- A buy that finds the book flat is entered exactly if it comes to a quantity. That no older trade
has the date of the bar is needed for one direction, and comes from the order of time. -/
theorem Movement.entered_iff {past : List (Bar α)} (h : Movement costs size .buy bar p p')
    (hflat : p.position = none) (hdated : p.DatedBy past)
    (hlater : ∀ b ∈ past, b.timestamp < bar.timestamp) :
    (∃ t ∈ p'.log, t.entryTimestamp = bar.timestamp) ↔
      Buyable (entryPosition costs size bar p).quantity := by
  cases h with
  | idle hbuy _ =>
    -- what the log has is older than the bar
    refine iff_of_false ?_ (hbuy rfl hflat)
    rintro ⟨t, ht, hentry⟩
    obtain ⟨b, hb, hdate⟩ := List.mem_map.mp (hdated t ht).1
    have := hlater b hb
    omega
  | entry _ _ hbuyable _ =>
    refine iff_of_true ⟨_, List.mem_cons_self, ?_⟩ hbuyable
    rfl
  | exit held hsell _ => cases hsell

end movement

section run

variable {source : SignalSource α σ} {costs : AccountSettings α} {state : σ}
  {bars : List (Bar α)} {last : Session α σ}

/-- A step whose answer has no effect, or is not overruled, is the same step with the overruled
source. -/
theorem Session.step_holdingAt {chosen : Nat → Bool} {s s' : Session α σ} {bar : Bar α}
    (hstep : s.step source costs bar = (s', none))
    (hchosen : chosen s.seen.size = true →
      ¬Acts costs source.positionSize (s.ask source bar).2 bar s.book) :
    s.step (source.holdingAt chosen) costs bar = (s', none) := by
  obtain ⟨book, hmove, rfl⟩ := Session.step_eq_iff.mp hstep
  refine Session.step_eq_iff.mpr ⟨book, ?_, ?_⟩
  · rw [Session.ask_holdingAt]
    split
    · rename_i hheld
      rw [hmove.eq_of_not_acts (hchosen hheld)]
      exact Movement.hold ..
    · exact hmove
  · rw [Session.ask_holdingAt]

/-- **Answers that the book does not act on may be replaced.** The walk is the same one, with the
same states of the source. -/
theorem Session.walk_holdingAt {chosen : Nat → Bool}
    (hwalk : (Session.start costs (source.reset state)).walk source costs bars = (last, none))
    (hchosen : ∀ i bar action, (answered source state bars)[i]? = some (bar, action) →
      chosen i = true →
        ¬Acts costs source.positionSize action bar (bookAfter source costs state (bars.take i))) :
    (Session.start costs (source.reset state)).walk (source.holdingAt chosen) costs bars =
      (last, none) := by
  suffices (Session.start costs (source.reset state)).walk source costs bars = (last, none) ∧
      (Session.start costs (source.reset state)).walk (source.holdingAt chosen) costs bars =
        (last, none) from this.2
  -- both walks are at the same session after every bar, so that a place means the same in both
  refine Session.walk_invariant
    (P := fun past s =>
      (Session.start costs (source.reset state)).walk source costs past = (s, none) ∧
        (Session.start costs (source.reset state)).walk (source.holdingAt chosen) costs past =
          (s, none)) ⟨Session.walk_nil, Session.walk_nil⟩ ?_ hwalk
  rintro past bar rest s s' hsplit ⟨hpast, hholding⟩ hstep
  have htake : bars.take past.length = past := by rw [hsplit, List.take_left]
  -- the source counts the bars it was shown, and this is the place of the answer
  have hsize : s.seen.size = past.length := by
    rw [(asked_in_order hpast).1, List.size_toArray]
  have hevent : (answered source state bars)[past.length]? = some (bar, (s.ask source bar).2) := by
    rw [hsplit]
    exact answered_at hpast bar rest
  have hstep' : s.step (source.holdingAt chosen) costs bar = (s', none) := by
    refine Session.step_holdingAt hstep ?_
    intro hheld
    have hacts := hchosen past.length bar _ hevent (hsize ▸ hheld)
    rw [htake, bookAfter, sessionAfter_eq hpast] at hacts
    exact hacts
  exact ⟨Session.walk_concat hpast hstep, Session.walk_concat hholding hstep'⟩

/-- Completing a trade does not touch its entry, so that what is entered at a bar can be read off
the log at the end. -/
theorem entered_at_bar {i : Nat} {bar : Bar α} (hbars : Chronological bars)
    (hwalk : (Session.start costs (source.reset state)).walk source costs bars = (last, none))
    (hbar : bars[i]? = some bar) :
    (∃ t ∈ last.book.log, t.entryTimestamp = bar.timestamp) ↔
      ∃ t ∈ (bookAfter source costs state (bars.take (i + 1))).log,
        t.entryTimestamp = bar.timestamp := by
  rw [← (log_at_bar hbars hwalk hbar).1, logAsOf]
  constructor
  · rintro ⟨t, ht, hdate⟩
    refine ⟨_, List.mem_map_of_mem (List.mem_filter.mpr ⟨ht, ?_⟩),
      (Trade.entryTimestamp_asOf ..).trans hdate⟩
    exact decide_eq_true (Int.le_of_eq hdate)
  · rintro ⟨t, ht, hdate⟩
    obtain ⟨kept, hkept, rfl⟩ := List.mem_map.mp ht
    exact ⟨kept, (List.mem_filter.mp hkept).1,
      (Trade.entryTimestamp_asOf ..).symm.trans hdate⟩

/-- A buy of a run that finds the book flat is entered exactly if it comes to a quantity. Refused it
cannot be, since the run went on. -/
theorem entered_iff_buyable {i : Nat} {bar : Bar α} (hbars : Chronological bars)
    (hwalk : (Session.start costs (source.reset state)).walk source costs bars = (last, none))
    (hevent : (answered source state bars)[i]? = some (bar, .buy))
    (hflat : (bookAfter source costs state (bars.take i)).position = none) :
    (∃ t ∈ last.book.log, t.entryTimestamp = bar.timestamp) ↔
      Buyable (entryPosition costs source.positionSize bar
        (bookAfter source costs state (bars.take i))).quantity := by
  obtain ⟨hbar, hmove⟩ := movement_at_event hwalk hevent
  rw [entered_at_bar hbars hwalk hbar]
  exact hmove.entered_iff hflat (kept_and_dated (walk_take hwalk i).1).2
    (hbars.lt_of_mem_take hbar)

end run

/-! ## The record

The parts of the statement, each proved of the session at the end of a walk and carried over to the
record. -/

namespace RunRecord

/-- The record covers the first bars of a series, as many as it counts. It is complete exactly if
these are all of them. -/
structure Covers (r : RunRecord α) (bars : List (Bar α)) : Prop where
  processed_le : r.barsProcessed ≤ bars.length
  length_curve : r.curve.length = r.barsProcessed
  length_timestamps : r.timestamps.length = r.barsProcessed
  curve_eq : r.curve.map EquityPoint.timestamp = (bars.take r.barsProcessed).map Bar.timestamp
  timestamps_eq : r.timestamps = (bars.take r.barsProcessed).map Bar.timestamp
  completed_iff : r.completed = true ↔ r.barsProcessed = bars.length

/-- The trades of the record follow from the events: each spans them, and only the last may be open.
In a record the trades stand in the order of time, in a book the other way round. -/
structure Traced (r : RunRecord α) (events : List (Bar α × Action)) : Prop where
  closed : ∀ t ∈ r.trades.dropLast, t.isClosed = true
  spans : ∀ t ∈ r.trades, t.Spans events
  forward : ∀ t ∈ r.trades, ∀ exit, t.exitTimestamp = some exit → t.entryTimestamp < exit
  apart : r.trades.Pairwise fun earlier later =>
    ∃ exit, earlier.exitTimestamp = some exit ∧ exit < later.entryTimestamp

end RunRecord

theorem covers {source : SignalSource α σ} {costs : AccountSettings α} {limit : Option Nat}
    {bars : List (Bar α)} {state : σ} {last : Session α σ}
    (hwalk : (Session.start costs (source.reset state)).walk source costs (reached limit bars) =
      (last, none)) :
    (last.toRecord costs ((reached limit bars).length == bars.length)).Covers bars := by
  have hprocessed := length_curve hwalk
  have htimes : last.curve.reverse.map EquityPoint.timestamp =
      (bars.take last.curve.length).map Bar.timestamp := by
    obtain ⟨points, hcurve, hpoints⟩ := Session.curve_walk hwalk
    have hstart : (Session.start costs (source.reset state)).curve = [] := rfl
    rw [hstart, List.append_nil] at hcurve
    rw [hprocessed, ← reached_eq_take, List.map_reverse, hcurve, hpoints, List.reverse_reverse]
  -- from here on everything is about the walk
  constructor <;> simp only [Session.toRecord_barsProcessed, Session.toRecord_curve,
    Session.toRecord_timestamps, List.length_map, List.length_reverse]
  case processed_le =>
    rw [hprocessed, reached_eq_take, List.length_take]
    exact Nat.min_le_right ..
  case curve_eq => exact htimes
  case timestamps_eq => exact htimes
  case completed_iff =>
    rw [hprocessed]
    exact beq_iff_eq

theorem replay_eq_of_walk {source : SignalSource α σ} {costs : AccountSettings α}
    {limit : Option Nat} {bars : List (Bar α)} {state : σ} {last : Session α σ}
    (hrefusal : refusal? source bars = none)
    (hwalk : (Session.start costs (source.reset state)).walk source costs (reached limit bars) =
      (last, none)) :
    replay source costs limit bars state =
      (last.state, .ok (last.toRecord costs ((reached limit bars).length == bars.length))) := by
  unfold replay
  rw [hrefusal]
  simp only [hwalk]

/-- A source that says hold where the book does not act makes the same run, up to the state it is
left in. Which places these are is read off the events of the original source. -/
theorem replay_holdingAt {source : SignalSource α σ} {costs : AccountSettings α}
    {limit : Option Nat} {bars : List (Bar α)} {state : σ} {r : RunRecord α} {chosen : Nat → Bool}
    (hrun : (replay source costs limit bars state).2 = .ok r)
    (hchosen : ∀ i bar action,
      (answered source state (reached limit bars))[i]? = some (bar, action) → chosen i = true →
        ¬Acts costs source.positionSize action bar
          (bookAfter source costs state ((reached limit bars).take i))) :
    replay (source.holdingAt chosen) costs limit bars state =
      replay source costs limit bars state := by
  obtain ⟨hbars, hwarmup, last, hwalk, -⟩ := replay_eq_ok_iff.mp hrun
  have hrefusal : refusal? source bars = none := refusal?_eq_none_iff.mpr ⟨hbars, hwarmup⟩
  have hrefusal' : refusal? (source.holdingAt chosen) bars = none := hrefusal
  have hwalk' : (Session.start costs ((source.holdingAt chosen).reset state)).walk
      (source.holdingAt chosen) costs (reached limit bars) = (last, none) :=
    Session.walk_holdingAt hwalk hchosen
  rw [replay_eq_of_walk hrefusal hwalk, replay_eq_of_walk hrefusal' hwalk']

theorem Portfolio.Traced.toRecord {costs : AccountSettings α} {last : Session α σ}
    {events : List (Bar α × Action)} (h : last.book.Traced events)
    (horder : Chronological (events.map Prod.fst)) (completed : Bool) :
    (last.toRecord costs completed).Traced events := by
  have hspans : ∀ t ∈ last.book.log.reverse, t.Spans events := fun t ht =>
    h.spans t (List.mem_reverse.mp ht)
  constructor
  · intro t ht
    -- every trade but the newest was over before the newest began
    rw [Session.toRecord_trades, List.dropLast_reverse, List.mem_reverse] at ht
    cases hlog : last.book.log with
    | nil =>
      rw [hlog] at ht
      cases ht
    | cons newest older =>
      have hapart := h.apart
      rw [hlog] at ht hapart
      obtain ⟨exit, hexit, -⟩ := (List.pairwise_cons.mp hapart).1 t ht
      exact Option.isSome_iff_exists.mpr ⟨exit, hexit⟩
  · exact hspans
  · exact fun t ht exit hexit => (hspans t ht).lt_exit horder hexit
  · exact List.pairwise_reverse.mpr h.apart

theorem traced_of_replay {source : SignalSource α σ} {costs : AccountSettings α}
    {limit : Option Nat} {bars : List (Bar α)} {state : σ} {r : RunRecord α}
    (hrun : (replay source costs limit bars state).2 = .ok r) :
    r.Traced (answered source state (reached limit bars)) := by
  obtain ⟨hbars, -, last, hwalk, rfl⟩ := replay_eq_ok_iff.mp hrun
  refine (traced (hbars.reached limit) hwalk).toRecord ?_ _
  rw [map_fst_answered]
  exact hbars.reached limit

/-- **The shape of a record.** Of a run that succeeds, with any source, costs, limit and state:

* it covers the bars up to its limit, and its trades follow from the events at these;
* a buy that finds the book flat is entered exactly if the quantity it comes to can be bought;
* an answer that the book does not act on leaves the book as it was, and holding instead, at any
  choice of such places, makes the same run. -/
theorem record_shape (source : SignalSource α σ) (costs : AccountSettings α) (limit : Option Nat)
    (bars : List (Bar α)) (state : σ) (r : RunRecord α)
    (hrun : (replay source costs limit bars state).2 = .ok r) :
    let events := answered source state (bars.take r.barsProcessed)
    let book := fun i => bookAfter source costs state (bars.take i)
    r.barsProcessed = (reached limit bars).length ∧ r.Covers bars ∧ r.Traced events ∧
      (∀ i bar action, events[i]? = some (bar, action) →
        (action = .buy → (book i).position = none →
          ((∃ t ∈ r.trades, t.entryTimestamp = bar.timestamp) ↔
            Buyable ((book i).affordable (buyFill costs bar.closing) source.positionSize
              costs.commissionRate))) ∧
        (¬Acts costs source.positionSize action bar (book i) → book (i + 1) = book i)) ∧
      ∀ chosen : Nat → Bool,
        (∀ i bar action, events[i]? = some (bar, action) → chosen i = true →
          ¬Acts costs source.positionSize action bar (book i)) →
        replay (source.holdingAt chosen) costs limit bars state =
          replay source costs limit bars state := by
  intro events book
  obtain ⟨hbars, -, last, hwalk, rfl⟩ := replay_eq_ok_iff.mp hrun
  have hprocessed :
      (last.toRecord costs ((reached limit bars).length == bars.length)).barsProcessed =
        (reached limit bars).length := by
    rw [Session.toRecord_barsProcessed, length_curve hwalk]
  have hevents : events = answered source state (reached limit bars) := by
    show answered source state _ = _
    rw [hprocessed, ← reached_eq_take]
  -- up to the bars processed, the series and its first part are the same
  have hbook : ∀ i, i ≤ (reached limit bars).length →
      book i = bookAfter source costs state ((reached limit bars).take i) := by
    intro i hle
    rw [take_reached hle]
  have hlt : ∀ {i bar action}, events[i]? = some (bar, action) →
      i < (reached limit bars).length := by
    intro i bar action hevent
    rw [← length_answered source state, ← hevents]
    exact (List.getElem?_eq_some_iff.mp hevent).1
  refine ⟨hprocessed, covers hwalk, ?_, ?_, ?_⟩
  · have htraced := traced (hbars.reached limit) hwalk
    rw [← hevents] at htraced
    refine htraced.toRecord ?_ _
    rw [hevents, map_fst_answered]
    exact hbars.reached limit
  · intro i bar action hevent
    have hi := hlt hevent
    have hevent' := hevent
    rw [hevents] at hevent'
    rw [hbook i (Nat.le_of_lt hi), hbook (i + 1) hi]
    constructor
    · rintro rfl hflat
      rw [Session.toRecord_trades]
      simp only [List.mem_reverse]
      exact entered_iff_buyable (hbars.reached limit) hwalk hevent' hflat
    · exact (movement_at_event hwalk hevent').2.eq_of_not_acts
  · intro chosen hchosen
    refine replay_holdingAt hrun ?_
    intro i bar action hevent hheld
    rw [← hevents] at hevent
    rw [← hbook i (Nat.le_of_lt (hlt hevent))]
    exact hchosen i bar action hevent hheld

/-- A source that says the actions of a list one after another, and hold from then on. -/
def scripted (script : List Action) : SignalSource Rat Unit where
  name := "script"
  warmup := 0
  positionSize := 1 / 2
  reset := id
  signalFor := fun _ bars =>
    ((), ⟨bars.size, script.getD (bars.size - 1) .hold⟩)

/-- A buy while something is held and a sell while nothing is leave no trace: of two trades the
first is closed, and both span the events. The two answers may be replaced. -/
theorem record_shape_sample :
    let source := scripted [.buy, .buy, .sell, .sell, .buy]
    ∃ r, (replay source .usual none sampleBars ()).2 = .ok r ∧
      r.trades.map Trade.isClosed = [true, false] ∧
      (∀ t ∈ r.trades, t.Spans (answered source () (sampleBars.take r.barsProcessed))) ∧
      replay (source.holdingAt fun i => i % 2 == 1) .usual none sampleBars () =
        replay source .usual none sampleBars () := by
  intro source
  have hshape : (replay source .usual none sampleBars ()).2.toOption.map
      (fun r => (r.trades.map Trade.isClosed, r.barsProcessed)) = some ([true, false], 5) := by
    decide +kernel
  have hidle : ∀ event ∈ (answered source () sampleBars).zipIdx, event.2 % 2 = 1 →
      ¬Acts .usual source.positionSize event.1.2 event.1.1
        (bookAfter source .usual () (sampleBars.take event.2)) := by
    decide +kernel
  cases hrun : (replay source .usual none sampleBars ()).2 with
  | error fault =>
    rw [hrun] at hshape
    cases hshape
  | ok r =>
    rw [hrun] at hshape
    simp only [Except.toOption, Option.map_some, Option.some.injEq, Prod.mk.injEq] at hshape
    obtain ⟨-, -, htraced, -, hholding⟩ :=
      record_shape source .usual none sampleBars () r hrun
    refine ⟨r, rfl, hshape.1, htraced.spans, hholding _ ?_⟩
    intro i bar action hevent hodd
    rw [hshape.2] at hevent
    exact hidle ((bar, action), i) (List.mem_zipIdx_iff_getElem?.mpr hevent) (beq_iff_eq.mp hodd)

end MarketReplay
