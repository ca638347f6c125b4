import MarketReplay.Proofs.Replay.Log
import MarketReplay.Proofs.Strategy.Answers

/-!
# The answers behind a log

A run asks its source at one bar after another, and what it is told can be written down beside the
bars: the *events* of the run (`answered`). They come from the source alone, whatever the book made
of them (`answered_concat`).

**The log can be read off the events** (`traced`). A trade spans them from a buy to the first sell
after it, or to the end if there is none (`Trade.Spans`), and one trade is over before the next one
begins. The step lemma goes through the three outcomes of a bar. A bar that leaves an open trade
open did not say sell, and this is what makes the sell that closes it the first one.
-/

set_option autoImplicit false

namespace MarketReplay

variable {α σ : Type}

/-! ## Events

A source may keep state from answer to answer. The events are therefore taken along the series in
order, from a reset, as a run does it. -/

namespace SignalSource

/-- Asking along two lists of bars is asking along the first and then, where this led to, along the
second. -/
theorem signalsAfter_append (source : SignalSource α σ) (first second seen : List (Bar α))
    (state : σ) :
    source.signalsAfter seen.toArray state (first ++ second) =
      let (state, signals) := source.signalsAfter seen.toArray state first
      let (state, signals') := source.signalsAfter (seen ++ first).toArray state second
      (state, signals ++ signals') := by
  induction first generalizing seen state with
  | nil => rw [List.append_nil]; rfl
  | cons bar rest ih =>
    have hpush : seen.toArray.push bar = (seen ++ [bar]).toArray := List.push_toArray ..
    simp only [List.cons_append, signalsAfter, hpush, ih]
    rw [List.append_assoc, List.singleton_append]

theorem length_signals (source : SignalSource α σ) (state : σ) (bars : List (Bar α)) :
    (source.signals state bars).2.length = bars.length := length_signalsAfter ..

end SignalSource

/-- The bars of a series with the answers that a source gives at them after a reset. These are the
events of a run: all it learns from outside, and in order. -/
def answered (source : SignalSource α σ) (state : σ) (bars : List (Bar α)) :
    List (Bar α × Action) :=
  bars.zip ((source.signals state bars).2.map Signal.action)

section answered

variable (source : SignalSource α σ) (state : σ)

theorem map_fst_answered (bars : List (Bar α)) :
    (answered source state bars).map Prod.fst = bars := by
  refine List.map_fst_zip (Nat.le_of_eq ?_)
  rw [List.length_map, SignalSource.length_signals]

/-- The events of a series begin with those of its first part. What follows are the answers from the
state that the first part leads to, with all the bars so far in view. -/
theorem answered_append (first second : List (Bar α)) :
    answered source state (first ++ second) =
      answered source state first ++
        second.zip ((source.signalsAfter first.toArray (source.signals state first).1
          second).2.map Signal.action) := by
  have hsignals := source.signalsAfter_append first second [] (source.reset state)
  rw [List.nil_append] at hsignals
  -- as many answers as bars, or the two would be paired wrongly from there on
  have hlength : first.length = ((source.signals state first).2.map Signal.action).length := by
    rw [List.length_map, SignalSource.length_signals]
  calc answered source state (first ++ second)
      = (first ++ second).zip ((source.signals state first).2.map Signal.action ++
          (source.signalsAfter first.toArray (source.signals state first).1
            second).2.map Signal.action) := by
        rw [← List.map_append]
        unfold answered SignalSource.signals
        rw [hsignals]
    _ = _ := by
        rw [List.zip_append hlength]
        rfl

/-- The next event is the next bar, with what the source says to it. The book does not occur: the
source is not told what became of its answers. -/
theorem answered_concat (past : List (Bar α)) (bar : Bar α) :
    answered source state (past ++ [bar]) =
      answered source state past ++
        [(bar, (source.signalFor (source.signals state past).1
          (past.toArray.push bar)).2.action)] :=
  answered_append source state past [bar]

theorem length_answered (bars : List (Bar α)) :
    (answered source state bars).length = bars.length := by
  rw [← List.length_map Prod.fst, map_fst_answered]

end answered

/-! ## The events of a run

A run keeps the bars it has seen and the state of its source. Both are those that the events are
made from. -/

section run

variable [Scalar α] {source : SignalSource α σ} {costs : AccountSettings α} {state : σ}
  {bars : List (Bar α)} {last : Session α σ}

/-- A run shows its source the bars so far, and carries the state that this leads to. This ties the
session to the events, once for all theorems about them. -/
theorem asked_in_order
    (hwalk : (Session.start costs (source.reset state)).walk source costs bars = (last, none)) :
    last.seen = bars.toArray ∧ last.state = (source.signals state bars).1 := by
  refine Session.walk_invariant
    (P := fun past s => s.seen = past.toArray ∧ s.state = (source.signals state past).1)
    ⟨rfl, rfl⟩ ?_ hwalk
  rintro past bar rest s s' _ ⟨hseen, hstate⟩ hstep
  have hsignals := source.signalsAfter_append past [bar] [] (source.reset state)
  rw [List.nil_append] at hsignals
  constructor
  · rw [Session.seen_step hstep, hseen, List.push_toArray]
  · rw [Session.state_step hstep, hseen, hstate]
    unfold SignalSource.signals
    rw [hsignals]
    rfl

/-- What a run is told at its next bar is the next event. -/
theorem answered_next
    (hwalk : (Session.start costs (source.reset state)).walk source costs bars = (last, none))
    (bar : Bar α) :
    answered source state (bars ++ [bar]) =
      answered source state bars ++ [(bar, (last.ask source bar).2)] := by
  obtain ⟨hseen, hstate⟩ := asked_in_order hwalk
  rw [answered_concat, ← hstate, ← hseen]
  rfl

/-- What comes after a bar does not change the event there. The walk is over the bars before, so
that the session that is asked is the one of the run. -/
theorem answered_at
    (hwalk : (Session.start costs (source.reset state)).walk source costs bars = (last, none))
    (bar : Bar α) (rest : List (Bar α)) :
    (answered source state (bars ++ bar :: rest))[bars.length]? =
      some (bar, (last.ask source bar).2) := by
  have hplace := Nat.le_of_eq (length_answered source state bars)
  rw [List.append_cons, answered_append, answered_next hwalk, List.append_assoc,
    List.getElem?_append_right hplace, length_answered, Nat.sub_self]
  rfl

theorem movement_at_event
    (hwalk : (Session.start costs (source.reset state)).walk source costs bars = (last, none))
    {i : Nat} {bar : Bar α} {action : Action}
    (hevent : (answered source state bars)[i]? = some (bar, action)) :
    bars[i]? = some bar ∧
      Movement costs source.positionSize action bar (bookAfter source costs state (bars.take i))
        (bookAfter source costs state (bars.take (i + 1))) := by
  have hbar : bars[i]? = some bar := by
    rw [← map_fst_answered source state bars, List.getElem?_map, hevent]
    rfl
  have hlength : (bars.take i).length = i :=
    List.length_take_of_le (Nat.le_of_lt (List.getElem?_eq_some_iff.mp hbar).1)
  -- the event at a bar is what the session before it is told
  have hasked := answered_at (walk_take hwalk i).1 bar (bars.drop (i + 1))
  rw [← drop_of_getElem? hbar, List.take_append_drop, hlength, hevent, Option.some.injEq,
    Prod.mk.injEq] at hasked
  refine ⟨hbar, ?_⟩
  rw [hasked.2]
  exact Session.movement_step (step_sessionAfter hwalk hbar)

end run

/-! ## Trades and events

Which events a trade spans, and how that changes with one more event. The case analysis is that of a
movement: the trade stays closed, stays open, is opened or is closed. -/

/-- The trade was entered at a bar that said buy, and left at the first bar behind it that said
sell, if one did. An open trade is one behind which nothing has said sell yet. Buys in between do
not matter. -/
def Trade.Spans (t : Trade α) (events : List (Bar α × Action)) : Prop :=
  ∃ before entry after, events = before ++ (entry, Action.buy) :: after ∧
    t.entryTimestamp = entry.timestamp ∧
    match t.exitTimestamp with
    | none => ∀ event ∈ after, event.2 ≠ Action.sell
    | some exit => ∃ between leaving rest, after = between ++ (leaving, Action.sell) :: rest ∧
        exit = leaving.timestamp ∧ ∀ event ∈ between, event.2 ≠ Action.sell

namespace Trade.Spans

variable {t : Trade α} {events : List (Bar α × Action)} {exit : Int}

/-- What comes after the exit of a trade does not concern it, whether it says sell or not. Closed
trades are carried along by this. -/
theorem append_of_closed (h : t.Spans events) (hclosed : t.isClosed = true)
    (more : List (Bar α × Action)) : t.Spans (events ++ more) := by
  obtain ⟨exit, hexit⟩ := Option.isSome_iff_exists.mp hclosed
  unfold Spans at h ⊢
  rw [hexit] at h ⊢
  obtain ⟨before, entry, after, rfl, hentry, between, leaving, rest, rfl, hleaving, hnone⟩ := h
  refine ⟨before, entry, _, ?_, hentry, between, leaving, rest ++ more, rfl, hleaving, hnone⟩
  simp only [List.append_assoc, List.cons_append]

/-- An open trade goes on when the next bar does not say sell. -/
theorem concat_of_open (h : t.Spans events) (hopen : t.exitTimestamp = none) {bar : Bar α}
    {action : Action} (haction : action ≠ .sell) : t.Spans (events ++ [(bar, action)]) := by
  unfold Spans at h ⊢
  rw [hopen] at h ⊢
  obtain ⟨before, entry, after, rfl, hentry, hnone⟩ := h
  refine ⟨before, entry, after ++ [(bar, action)], by simp, hentry, ?_⟩
  intro event hevent
  rcases List.mem_append.mp hevent with hevent | hevent
  · exact hnone event hevent
  · rw [List.mem_singleton.mp hevent]
    exact haction

variable [Scalar α] {held : Position α}

theorem opened {bar : Bar α} (hentry : held.entryTimestamp = bar.timestamp) :
    held.openTrade.Spans (events ++ [(bar, .buy)]) := by
  refine ⟨events, bar, [], rfl, hentry, ?_⟩
  intro event hevent
  cases hevent

theorem sold (h : held.openTrade.Spans events) (fill commission : α) (bar : Bar α) :
    (held.closedTrade fill bar.timestamp commission).Spans (events ++ [(bar, .sell)]) := by
  obtain ⟨before, entry, after, rfl, hentry, hnone⟩ := h
  exact ⟨before, entry, after ++ [(bar, .sell)], by simp, hentry, after, bar, [], rfl, rfl, hnone⟩

end Trade.Spans

theorem Trade.Spans.lt_exit {t : Trade α} {events : List (Bar α × Action)} {exit : Int}
    (h : t.Spans events) (horder : Chronological (events.map Prod.fst))
    (hexit : t.exitTimestamp = some exit) : t.entryTimestamp < exit := by
  unfold Trade.Spans at h
  rw [hexit] at h
  obtain ⟨before, entry, after, rfl, hentry, between, leaving, rest, rfl, rfl, -⟩ := h
  rw [hentry]
  have hpairs := (List.pairwise_map.mp horder)
  have hafter := (List.pairwise_cons.mp (List.pairwise_append.mp hpairs).2.1).1
  exact hafter (leaving, .sell) (by simp)

/-! ## The log of a run

The invariant is about the whole log. Its second part makes the trades follow one another, which the
spans alone do not: two trades could span the same events. -/

variable [Scalar α]

/-- The log of a book follows from the events: each trade spans them, and it is over before the next
one begins. Only the newest trade can then be open. -/
structure Portfolio.Traced (p : Portfolio α) (events : List (Bar α × Action)) : Prop where
  spans : ∀ t ∈ p.log, t.Spans events
  apart : p.log.Pairwise fun later earlier =>
    ∃ exit, earlier.exitTimestamp = some exit ∧ exit < later.entryTimestamp

namespace Portfolio.Traced

variable {p p' : Portfolio α} {costs : AccountSettings α} {size : α} {action : Action}
  {bar : Bar α} {past : List (Bar α)} {events : List (Bar α × Action)}

theorem idle (hkept : p.Kept costs.commissionRate) (h : p.Traced events)
    (hsell : action = .sell → p.position = none) : p.Traced (events ++ [(bar, action)]) where
  spans := by
    intro t ht
    by_cases hclosed : t.isClosed = true
    · exact (h.spans t ht).append_of_closed hclosed _
    · refine (h.spans t ht).concat_of_open (Option.not_isSome_iff_eq_none.mp hclosed) ?_
      intro haction
      exact hclosed (hkept.closed_of_flat (hsell haction) t ht)
  apart := h.apart

/-- A new trade is the newest, and all others are closed by now. They were closed at bars of the
past, and the order of time makes these earlier than the entry. -/
theorem opened {held : Position α} (hkept : p.Kept costs.commissionRate) (hdated : p.DatedBy past)
    (hlater : ∀ b ∈ past, b.timestamp < bar.timestamp) (h : p.Traced events)
    (hflat : p.position = none) (hentry : held.entryTimestamp = bar.timestamp) :
    (p.opened held).Traced (events ++ [(bar, .buy)]) := by
  have hclosed := hkept.closed_of_flat hflat
  constructor
  · intro t ht
    rcases List.mem_cons.mp ht with rfl | ht
    · exact .opened hentry
    · exact (h.spans t ht).append_of_closed (hclosed t ht) _
  · refine List.pairwise_cons.mpr ⟨?_, h.apart⟩
    intro t ht
    obtain ⟨exit, hexit⟩ := Option.isSome_iff_exists.mp (hclosed t ht)
    -- the exit of an older trade has the date of a bar of the past
    obtain ⟨b, hb, rfl⟩ := List.mem_map.mp ((hdated t ht).2 exit hexit)
    refine ⟨b.timestamp, hexit, ?_⟩
    show b.timestamp < held.entryTimestamp
    rw [hentry]
    exact hlater b hb

theorem leave {held : Position α} (hkept : p.Kept costs.commissionRate) (h : p.Traced events)
    (hheld : p.position = some held) :
    (MarketReplay.leave costs bar p).Traced (events ++ [(bar, .sell)]) := by
  obtain ⟨closed, hclosed, hlog, hlog'⟩ := hkept.logs_leave hheld costs bar
  have hspans := h.spans
  have hapart := h.apart
  rw [hlog] at hspans hapart
  constructor
  · rw [hlog']
    intro t ht
    rcases List.mem_cons.mp ht with rfl | ht
    · exact (hspans held.openTrade List.mem_cons_self).sold ..
    · -- all trades but the open one have their exit already
      have htclosed : t.isClosed = true := by
        rw [← hclosed] at ht
        exact (List.mem_filter.mp ht).2
      exact (hspans t (List.mem_cons_of_mem _ ht)).append_of_closed htclosed _
  · rw [hlog']
    obtain ⟨hnewest, hrest⟩ := List.pairwise_cons.mp hapart
    exact List.pairwise_cons.mpr ⟨hnewest, hrest⟩

/-- **A bar keeps the log in step with the events.** An opened trade begins at the new event, a
closed one ends at it, and the others do not see it. -/
theorem movement (hkept : p.Kept costs.commissionRate) (hdated : p.DatedBy past)
    (hlater : ∀ b ∈ past, b.timestamp < bar.timestamp) (h : p.Traced events)
    (hmove : Movement costs size action bar p p') : p'.Traced (events ++ [(bar, action)]) := by
  cases hmove with
  | idle _ hsell => exact h.idle hkept hsell
  | entry hbuy hflat _ _ =>
    subst hbuy
    exact h.opened hkept hdated hlater hflat rfl
  | exit held hsell hheld =>
    subst hsell
    exact h.leave hkept hheld

end Portfolio.Traced

/-- **The log of a run follows from its events.** Nothing is assumed of the source or of the
numbers; the bars have to be in order, which a run that is not refused guarantees. -/
theorem traced {source : SignalSource α σ} {costs : AccountSettings α} {state : σ}
    {bars : List (Bar α)} {last : Session α σ} (hbars : Chronological bars)
    (hwalk : (Session.start costs (source.reset state)).walk source costs bars = (last, none)) :
    last.book.Traced (answered source state bars) := by
  suffices (Session.start costs (source.reset state)).walk source costs bars = (last, none) ∧
      last.book.Traced (answered source state bars) from this.2
  -- that the session is the one after the bars so far goes along, for the log and for the events
  refine Session.walk_invariant
    (P := fun past s =>
      (Session.start costs (source.reset state)).walk source costs past = (s, none) ∧
        s.book.Traced (answered source state past)) ?_ ?_ hwalk
  · exact ⟨Session.walk_nil, ⟨fun t ht => (by cases ht), List.Pairwise.nil⟩⟩
  · rintro past bar rest s s' hsplit ⟨hpast, htraced⟩ hstep
    obtain ⟨hkept, hdated⟩ := kept_and_dated hpast
    have hlater : ∀ b ∈ past, b.timestamp < bar.timestamp := by
      rw [hsplit] at hbars
      exact fun b hb => (List.pairwise_append.mp hbars).2.2 b hb bar List.mem_cons_self
    refine ⟨Session.walk_concat hpast hstep, ?_⟩
    rw [answered_next hpast]
    exact htraced.movement hkept hdated hlater (Session.movement_step hstep)

end MarketReplay
