import MarketReplay.Proofs.Book.Recorded
import MarketReplay.Proofs.Replay.Walk

/-!
# The log of a run

Two facts about the log of trades, for numbers of any kind.

**The log repeats the position** (`Portfolio.Kept`), and what is held was bought at the rate of the
run. As long as a position is held, the newest trade is its open record, with nothing but the entry
in it, and every other trade is closed; while nothing is held, every trade is closed. A sale
completes the newest trade and looks at no other, and by this it completes the right one.

**The log as of a time stays what it is** (`logAsOf_walk`). Trades entered later are left out of it,
and later exits are undone. Completing a trade overwrites its record, so that a log is not a prefix
of the log some bars later; but bars later than a time can only add to the log what `logAsOf` takes
away again.

Undoing an exit has to restore the commission of the entry, which the completed record no longer
shows apart. It can be computed again from the quantity, the price and the rate, and the second
field of `Kept` says that this gives the very same number, also where numbers are rounded.
-/

set_option autoImplicit false

namespace MarketReplay

variable {α σ : Type} [Scalar α]

/-! ## The log repeats the position

The invariant holds of every book that arises by movements, and not of every book: the calls of a
portfolio from outside can make others, for which see the modules on books. -/

namespace Portfolio

/-- The log of a book agrees with its position, whose commission is that of its entry. The
commission is computed at the entry and kept; that it is the same expression is used to undo
exits. -/
structure Kept (rate : α) (p : Portfolio α) : Prop where
  log_eq : p.log = p.position.toList.map Position.openTrade ++ p.log.filter Trade.isClosed
  commission_eq : ∀ held, p.position = some held →
    held.entryCommission = held.quantity * held.entryPrice * rate

namespace Kept

variable {rate : α} {p : Portfolio α} {held : Position α}

theorem recorded (h : p.Kept rate) : p.Recorded := h.log_eq

theorem closed_of_flat (h : p.Kept rate) (hflat : p.position = none) :
    ∀ t ∈ p.log, t.isClosed = true := by
  intro t ht
  rw [h.recorded.log_of_flat hflat] at ht
  exact (List.mem_filter.mp ht).2

theorem ofCapital (rate capital : α) : (Portfolio.ofCapital capital).Kept rate where
  log_eq := Recorded.ofCapital capital
  commission_eq := by intro held h; cases h

theorem opened (h : p.Kept rate) (hflat : p.position = none)
    (hcommission : held.entryCommission = held.quantity * held.entryPrice * rate) :
    (p.opened held).Kept rate where
  log_eq := h.recorded.opened hflat
  commission_eq := by
    rintro held' ⟨⟩
    exact hcommission

theorem leave_eq_sold (h : p.Kept rate) (hheld : p.position = some held)
    (costs : AccountSettings α) (bar : Bar α) :
    MarketReplay.leave costs bar p =
      p.sold held (sellFill costs bar.closing) bar.timestamp
        (held.exitCommission (sellFill costs bar.closing) costs.commissionRate) := by
  unfold MarketReplay.leave
  rw [hheld]
  exact congrArg Prod.fst (h.recorded.closePosition_of_held hheld)

/-- Selling the position completes its record and nothing else in the log. Both logs are written
with the same closed trades, so that a proof about a sale compares their heads. -/
theorem logs_leave (h : p.Kept rate) (hheld : p.position = some held) (costs : AccountSettings α)
    (bar : Bar α) :
    ∃ closed, closed.filter Trade.isClosed = closed ∧ p.log = held.openTrade :: closed ∧
      (MarketReplay.leave costs bar p).log =
        held.closedTrade (sellFill costs bar.closing) bar.timestamp
          (held.exitCommission (sellFill costs bar.closing) costs.commissionRate) :: closed := by
  refine ⟨p.log.filter Trade.isClosed, ?_, h.recorded.log_of_held hheld, ?_⟩
  · rw [List.filter_filter]
    simp only [Bool.and_self]
  · rw [h.leave_eq_sold hheld]
    rfl

theorem leave (h : p.Kept rate) (hheld : p.position = some held) (costs : AccountSettings α)
    (bar : Bar α) : (MarketReplay.leave costs bar p).Kept rate := by
  rw [h.leave_eq_sold hheld]
  exact ⟨Recorded.sold, fun held' hheld' => by cases hheld'⟩

theorem movement {costs : AccountSettings α} {size : α} {action : Action} {bar : Bar α}
    {p' : Portfolio α} (h : p.Kept costs.commissionRate)
    (hmove : Movement costs size action bar p p') : p'.Kept costs.commissionRate := by
  cases hmove with
  | idle => exact h
  | entry _ hflat _ _ => exact h.opened hflat rfl
  | exit held _ hheld => exact h.leave hheld costs bar

end Kept

end Portfolio

/-! ## Dates

That all dates of a log are dates of bars processed, and that the open record can be found in a
record of a run. With the order of time the first says that no date lies in the future. -/

/-- The dates in a book are those of bars. With this a date that is later than all bars so far is in
no book so far. -/
def Portfolio.DatedBy (p : Portfolio α) (bars : List (Bar α)) : Prop :=
  ∀ t ∈ p.log, t.entryTimestamp ∈ bars.map Bar.timestamp ∧
    ∀ exit, t.exitTimestamp = some exit → exit ∈ bars.map Bar.timestamp

theorem Portfolio.DatedBy.movement {costs : AccountSettings α} {size : α} {action : Action}
    {bar : Bar α} {p p' : Portfolio α} {past : List (Bar α)} (hkept : p.Kept costs.commissionRate)
    (h : p.DatedBy past) (hmove : Movement costs size action bar p p') :
    p'.DatedBy (past ++ [bar]) := by
  have hbar : bar.timestamp ∈ (past ++ [bar]).map Bar.timestamp := by simp
  have hpast : p.DatedBy (past ++ [bar]) := by
    intro t ht
    rw [List.map_append]
    exact ⟨List.mem_append_left _ (h t ht).1,
      fun exit hexit => List.mem_append_left _ ((h t ht).2 exit hexit)⟩
  cases hmove with
  | idle => exact hpast
  | entry _ hflat _ _ =>
    intro t ht
    rcases List.mem_cons.mp ht with rfl | ht
    · exact ⟨hbar, fun exit hexit => by cases hexit⟩
    · exact hpast t ht
  | exit held _ hheld =>
    obtain ⟨closed, -, hlog, hlog'⟩ := hkept.logs_leave hheld costs bar
    intro t ht
    rw [hlog'] at ht
    rcases List.mem_cons.mp ht with rfl | ht
    · -- the exit is dated by this bar, the entry was by an earlier one
      have hopen := hpast held.openTrade (by rw [hlog]; exact List.mem_cons_self)
      refine ⟨hopen.1, fun exit hexit => ?_⟩
      cases hexit
      exact hbar
    · exact hpast t (by rw [hlog]; exact List.mem_cons_of_mem _ ht)

/-- The open trade of a record stands for the position held at the end. A record has no position,
and this is how theorems about records get at it. -/
theorem openTrade?_toRecord {costs : AccountSettings α} {last : Session α σ}
    (h : last.book.Kept costs.commissionRate) (completed : Bool) :
    (last.toRecord costs completed).openTrade? = last.book.position.map Position.openTrade := by
  unfold RunRecord.openTrade?
  rw [Session.toRecord_trades, List.getLast?_reverse]
  cases hp : last.book.position with
  | some held =>
    rw [h.recorded.log_of_held hp]
    rfl
  | none =>
    -- without a position every trade of the log is closed, the newest one too
    cases hhead : last.book.log.head? with
    | none => rfl
    | some t => exact if_pos (h.closed_of_flat hp t (List.mem_of_head? hhead))

section run

variable {source : SignalSource α σ} {costs : AccountSettings α} {state : σ}
  {bars : List (Bar α)} {last : Session α σ}

theorem kept_and_dated
    (hwalk : (Session.start costs (source.reset state)).walk source costs bars = (last, none)) :
    last.book.Kept costs.commissionRate ∧ last.book.DatedBy bars := by
  refine Session.walk_invariant
    (P := fun past s => s.book.Kept costs.commissionRate ∧ s.book.DatedBy past) ?_ ?_ hwalk
  · exact ⟨.ofCapital _ _, fun t ht => by cases ht⟩
  · rintro past bar rest s s' _ ⟨hkept, hdated⟩ hstep
    have hmove := Session.movement_step hstep
    exact ⟨hkept.movement hmove, hdated.movement hkept hmove⟩

end run

/-! ## The log as of a time

What the log at the end of a run shows of an earlier time. The definitions are plain enough to be
part of a statement; the lemmas say that later movements do not change it. -/

/-- The trade was entered at or before a time. -/
def Trade.enteredBy (time : Int) (t : Trade α) : Bool := decide (t.entryTimestamp ≤ time)

/-- The trade was closed at or before a time. An open trade has no exit and was not. -/
def Trade.exitedBy (time : Int) (t : Trade α) : Bool :=
  match t.exitTimestamp with
  | some exit => decide (exit ≤ time)
  | none => false

/-- The trade without its exit: what stood in the log after the entry alone. The commission paid by
then was that of the entry, and no result was realized. -/
def Trade.reopened (rate : α) (t : Trade α) : Trade α :=
  { t with
    exitTimestamp := none
    exitPrice := none
    commissionPaid := t.quantity * t.entryPrice * rate
    realizedPnl := 0 }

/-- The trade as it stood at a time: a later exit is undone. An exit at the time itself stays, since
it belongs to the bar of that time. -/
def Trade.asOf (rate : α) (time : Int) (t : Trade α) : Trade α :=
  match t.exitTimestamp with
  | some exit => if time < exit then t.reopened rate else t
  | none => t

theorem Trade.entryTimestamp_asOf (rate : α) (time : Int) (t : Trade α) :
    (t.asOf rate time).entryTimestamp = t.entryTimestamp := by
  unfold Trade.asOf
  split
  · split <;> rfl
  · rfl

/-- The trades entered at or before a time, as they stood then. It is worked out from a finished log
and knows nothing of the run that wrote it. -/
def logAsOf (rate : α) (time : Int) (log : List (Trade α)) : List (Trade α) :=
  (log.filter (Trade.enteredBy time)).map (Trade.asOf rate time)

@[simp] theorem enteredBy_openTrade (held : Position α) (time : Int) :
    held.openTrade.enteredBy time = decide (held.entryTimestamp ≤ time) := rfl

@[simp] theorem enteredBy_closedTrade (held : Position α) (fill commission : α)
    (timestamp time : Int) :
    (held.closedTrade fill timestamp commission).enteredBy time =
      decide (held.entryTimestamp ≤ time) := rfl

@[simp] theorem exitedBy_openTrade (held : Position α) (time : Int) :
    held.openTrade.exitedBy time = false := rfl

@[simp] theorem exitedBy_closedTrade (held : Position α) (fill commission : α)
    (timestamp time : Int) :
    (held.closedTrade fill timestamp commission).exitedBy time = decide (timestamp ≤ time) := rfl

theorem reverse_logAsOf (rate : α) (time : Int) (log : List (Trade α)) :
    (logAsOf rate time log).reverse = logAsOf rate time log.reverse := by
  simp [logAsOf, List.filter_reverse, List.map_reverse]

section later

variable {costs : AccountSettings α} {size : α} {action : Action} {bar : Bar α}
  {book book' : Portfolio α} {time : Int}

theorem asOf_closedTrade {rate : α} {held : Position α} {fill commission : α} {timestamp : Int}
    (hcommission : held.entryCommission = held.quantity * held.entryPrice * rate)
    (hlater : time < timestamp) :
    (held.closedTrade fill timestamp commission).asOf rate time = held.openTrade := by
  show (if time < timestamp then _ else _) = _
  rw [if_pos hlater]
  simp only [Trade.reopened, Position.closedTrade, Portfolio.completed, Position.openTrade,
    hcommission]

/-- A movement later than a time leaves the log as of that time as it is. An entry adds a trade that
is left out, an exit replaces a record by one that becomes the same when the exit is undone. -/
theorem logAsOf_movement (hkept : book.Kept costs.commissionRate)
    (hmove : Movement costs size action bar book book') (hlater : time < bar.timestamp) :
    logAsOf costs.commissionRate time book'.log = logAsOf costs.commissionRate time book.log := by
  unfold logAsOf
  cases hmove with
  | idle => rfl
  | entry _ _ _ _ =>
    have hout : ¬(entryPosition costs size bar book).openTrade.enteredBy time = true := by
      rw [enteredBy_openTrade, decide_eq_true_eq]
      exact Int.not_le.mpr hlater
    exact congrArg _ (List.filter_cons_of_neg hout)
  | exit held _ hheld =>
    obtain ⟨closed, -, hlog, hlog'⟩ := hkept.logs_leave hheld costs bar
    -- the two records differ in the exit, which is undone, or neither is in the log yet
    rw [hlog, hlog']
    by_cases hentry : held.entryTimestamp ≤ time
    · rw [List.filter_cons_of_pos (by simpa using hentry),
        List.filter_cons_of_pos (by simpa using hentry), List.map_cons, List.map_cons,
        asOf_closedTrade (hkept.commission_eq held hheld) hlater]
      rfl
    · rw [List.filter_cons_of_neg (by simpa using hentry),
        List.filter_cons_of_neg (by simpa using hentry)]

/-- A movement later than a time closes no trade by that time. -/
theorem exitedBy_movement (hkept : book.Kept costs.commissionRate)
    (hmove : Movement costs size action bar book book') (hlater : time < bar.timestamp) :
    book'.log.filter (Trade.exitedBy time) = book.log.filter (Trade.exitedBy time) := by
  cases hmove with
  | idle => rfl
  | entry _ _ _ _ => exact List.filter_cons_of_neg (by simp)
  | exit held _ hheld =>
    obtain ⟨closed, -, hlog, hlog'⟩ := hkept.logs_leave hheld costs bar
    have hout : ¬bar.timestamp ≤ time := by omega
    rw [hlog, hlog', List.filter_cons_of_neg (by simpa using hout),
      List.filter_cons_of_neg (by simp)]

end later

/-- **Bars later than a time leave the log as of that time as it is**, and close no trade by it. The
two parts go through the same induction, and both need that the log repeats the position. -/
theorem logAsOf_walk {source : SignalSource α σ} {costs : AccountSettings α} {s s' : Session α σ}
    {bars : List (Bar α)} {time : Int} (hkept : s.book.Kept costs.commissionRate)
    (hlater : ∀ bar ∈ bars, time < bar.timestamp)
    (hwalk : s.walk source costs bars = (s', none)) :
    logAsOf costs.commissionRate time s'.book.log = logAsOf costs.commissionRate time s.book.log ∧
      s'.book.log.filter (Trade.exitedBy time) = s.book.log.filter (Trade.exitedBy time) := by
  suffices s'.book.Kept costs.commissionRate ∧
      logAsOf costs.commissionRate time s'.book.log =
        logAsOf costs.commissionRate time s.book.log ∧
      s'.book.log.filter (Trade.exitedBy time) = s.book.log.filter (Trade.exitedBy time) from this.2
  -- the invariant needs `Kept` of every book on the way, to undo the exits
  refine Session.walk_invariant
    (P := fun _ t => t.book.Kept costs.commissionRate ∧
      logAsOf costs.commissionRate time t.book.log =
        logAsOf costs.commissionRate time s.book.log ∧
      t.book.log.filter (Trade.exitedBy time) = s.book.log.filter (Trade.exitedBy time))
    ⟨hkept, rfl, rfl⟩ ?_ hwalk
  rintro past bar rest t t' hbars ⟨hkept', hview, hexits⟩ hstep
  have hmove := Session.movement_step hstep
  have hbar : time < bar.timestamp := hlater bar (by rw [hbars]; simp)
  refine ⟨hkept'.movement hmove, ?_, ?_⟩
  · rw [logAsOf_movement hkept' hmove hbar, hview]
  · rw [exitedBy_movement hkept' hmove hbar, hexits]

theorem logAsOf_eq_self (rate : α) {time : Int} {log : List (Trade α)}
    (h : ∀ t ∈ log, t.entryTimestamp ≤ time ∧ ∀ exit, t.exitTimestamp = some exit → exit ≤ time) :
    logAsOf rate time log = log ∧
      log.filter (Trade.exitedBy time) = log.filter Trade.isClosed := by
  constructor
  · -- no trade is left out
    have hfilter : log.filter (Trade.enteredBy time) = log :=
      List.filter_eq_self.mpr fun t ht => decide_eq_true (h t ht).1
    rw [logAsOf, hfilter]
    refine (List.map_congr_left fun t ht => ?_).trans (List.map_id log)
    cases hexit : t.exitTimestamp with
    | none => simp [Trade.asOf, hexit]
    | some exit =>
      have hnot : ¬time < exit := by
        have := (h t ht).2 exit hexit
        omega
      simp [Trade.asOf, hexit, hnot]
  · refine List.filter_congr fun t ht => ?_
    cases hexit : t.exitTimestamp with
    | none => simp [Trade.exitedBy, Trade.isClosed, hexit]
    | some exit => simpa [Trade.exitedBy, Trade.isClosed, hexit] using (h t ht).2 exit hexit

/-- **The log after a bar of a run can be read off the log at its end**: it is the latter as of the
bar's time, and the trades closed in it are those closed by then. A record has only the log at the
end, so that every statement about an earlier bar passes through here. -/
theorem log_at_bar {source : SignalSource α σ} {costs : AccountSettings α} {state : σ}
    {bars : List (Bar α)} {last : Session α σ} {i : Nat} {bar : Bar α} (hbars : Chronological bars)
    (hwalk : (Session.start costs (source.reset state)).walk source costs bars = (last, none))
    (hbar : bars[i]? = some bar) :
    logAsOf costs.commissionRate bar.timestamp last.book.log =
        (bookAfter source costs state (bars.take (i + 1))).log ∧
      last.book.log.filter (Trade.exitedBy bar.timestamp) =
        (bookAfter source costs state (bars.take (i + 1))).log.filter Trade.isClosed := by
  obtain ⟨hfirst, hrest⟩ := walk_take hwalk (i + 1)
  obtain ⟨hkept, hdated⟩ := kept_and_dated hfirst
  have hdates : ∀ date ∈ (bars.take (i + 1)).map Bar.timestamp, date ≤ bar.timestamp := by
    intro date hdate
    obtain ⟨b, hb, rfl⟩ := List.mem_map.mp hdate
    exact hbars.le_of_mem_take hbar b hb
  -- what comes after the bar changes neither, and before it no date is later
  obtain ⟨hview, hexits⟩ := logAsOf_walk hkept (hbars.lt_of_mem_drop hbar) hrest
  obtain ⟨hself, hclosed⟩ :=
    logAsOf_eq_self costs.commissionRate fun t ht =>
      ⟨hdates _ (hdated t ht).1, fun exit hexit => hdates _ ((hdated t ht).2 exit hexit)⟩
  exact ⟨hview.trans hself, hexits.trans hclosed⟩

end MarketReplay
