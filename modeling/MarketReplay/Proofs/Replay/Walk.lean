import MarketReplay.Proofs.Replay.Movement

/-!
# Walking along a series

The loop of a run, bar by bar. `Session.step_eq_iff` says what one bar does to a session: the source
is asked, the book moves, and the equity is recorded. Two rules carry this to whole walks:

* **`Session.walk_invariant`**: what holds at the start and is kept by every step holds at the end;
* **`Session.walk_total`**: if moreover no step fails, the walk does not.

In both the invariant may speak of the bars processed so far, and a step may use how the series
splits at its bar; the order of time enters the proofs in this way and no other.

A walk over a series is a walk over its first part followed by a walk over the rest
(`Session.walk_append_eq_iff`), and what is recorded is only added to (`Session.curve_walk`). Hence
the session after some bars of a run, `sessionAfter`, does not depend on how the series goes on.
-/

set_option autoImplicit false

namespace MarketReplay

variable {α σ : Type}

/-! ## The order of time

A run refuses a series that is not in order before it looks at a bar, by comparing neighbours. What
the proofs use is the statement about all pairs, and its forms at one bar of the series. -/

theorem take_succ_of_getElem? {bars : List (Bar α)} {i : Nat} {bar : Bar α}
    (hbar : bars[i]? = some bar) : bars.take (i + 1) = bars.take i ++ [bar] := by
  rw [List.take_add_one, hbar]
  rfl

theorem drop_of_getElem? {bars : List (Bar α)} {i : Nat} {bar : Bar α}
    (hbar : bars[i]? = some bar) : bars.drop i = bar :: bars.drop (i + 1) := by
  obtain ⟨hlt, rfl⟩ := List.getElem?_eq_some_iff.mp hbar
  exact List.drop_eq_getElem_cons hlt

/-- Every bar is later than the bars before it. Two bars of one time are out of order as well. -/
def Chronological (bars : List (Bar α)) : Prop :=
  bars.Pairwise fun a b => a.timestamp < b.timestamp

namespace Chronological

variable {bars : List (Bar α)} {i : Nat} {bar : Bar α}

theorem take (h : Chronological bars) (n : Nat) : Chronological (bars.take n) :=
  List.Pairwise.sublist (List.take_sublist n bars) h

/-- The bars after a bar are later. This is what lets a log be read as of the time of a bar:
whatever the rest of a run adds to it carries a later date. -/
theorem lt_of_mem_drop (h : Chronological bars) (hbar : bars[i]? = some bar) :
    ∀ b ∈ bars.drop (i + 1), bar.timestamp < b.timestamp := by
  have hpairs : Chronological (bars.drop i) :=
    List.Pairwise.sublist (List.drop_sublist i bars) h
  rw [drop_of_getElem? hbar, Chronological, List.pairwise_cons] at hpairs
  exact hpairs.1

theorem lt_of_mem_take (h : Chronological bars) (hbar : bars[i]? = some bar) :
    ∀ b ∈ bars.take i, b.timestamp < bar.timestamp := by
  have hpairs := h.take (i + 1)
  rw [take_succ_of_getElem? hbar, Chronological, List.pairwise_append] at hpairs
  exact fun b hb => hpairs.2.2 b hb bar (List.mem_singleton_self bar)

theorem le_of_mem_take (h : Chronological bars) (hbar : bars[i]? = some bar) :
    ∀ b ∈ bars.take (i + 1), b.timestamp ≤ bar.timestamp := by
  intro b hb
  rw [take_succ_of_getElem? hbar] at hb
  rcases List.mem_append.mp hb with hb | hb
  · exact Int.le_of_lt (h.lt_of_mem_take hbar b hb)
  · exact Int.le_of_eq (congrArg Bar.timestamp (List.mem_singleton.mp hb))

theorem reached (h : Chronological bars) (limit : Option Nat) :
    Chronological (MarketReplay.reached limit bars) := by
  cases limit with
  | none => exact h
  | some n => exact h.take n

end Chronological

/-- A run that stops early has processed the first bars of the series, so that up to its last bar
the two series are one. -/
theorem take_reached {limit : Option Nat} {bars : List (Bar α)} {n : Nat}
    (h : n ≤ (reached limit bars).length) : (reached limit bars).take n = bars.take n := by
  cases limit with
  | none => rfl
  | some m =>
    rw [reached, List.length_take] at h
    rw [reached, List.take_take, Nat.min_eq_left (by omega)]

theorem mem_of_mem_reached {limit : Option Nat} {bars : List (Bar α)} {bar : Bar α}
    (h : bar ∈ reached limit bars) : bar ∈ bars := by
  cases limit with
  | none => exact h
  | some n => exact List.mem_of_mem_take h

/-- **Nothing is found out of order exactly if every pair of bars is in order.** The search compares
neighbours and counts places for its message; the places do not matter here. -/
theorem outOfOrder?_eq_none_iff :
    ∀ (bars : List (Bar α)) (index : Nat), outOfOrder? index bars = none ↔ Chronological bars
  | [], _ => by simp [outOfOrder?, Chronological]
  | [_], _ => by simp [outOfOrder?, Chronological]
  | a :: b :: rest, index => by
    have ih := outOfOrder?_eq_none_iff (b :: rest) (index + 1)
    -- only neighbours are compared, the rest is transitivity
    unfold outOfOrder?
    split
    · rename_i hle
      simp only [reduceCtorEq, Chronological, List.pairwise_cons, false_iff, not_and]
      intro ha
      have := ha b List.mem_cons_self
      omega
    · rename_i hlt
      rw [ih]
      simp only [Chronological, List.pairwise_cons]
      constructor
      · rintro ⟨hb, hrest⟩
        refine ⟨fun c hc => ?_, hb, hrest⟩
        rcases List.mem_cons.mp hc with rfl | hc
        · omega
        · have := hb c hc
          omega
      · rintro ⟨-, hb, hrest⟩
        exact ⟨hb, hrest⟩

/-- A series that is refused is named as such in the fault, whether it is out of order or too
short. -/
theorem eq_accountSetting_of_refusal? {source : SignalSource α σ} {bars : List (Bar α)}
    {fault : Fault α} (h : refusal? source bars = some fault) :
    ∃ reason, fault = .accountSetting "bars" reason := by
  unfold refusal? at h
  split at h
  · cases h
    exact ⟨_, rfl⟩
  · split at h
    · cases h
      exact ⟨_, rfl⟩
    · cases h

theorem refusal?_eq_none_iff {source : SignalSource α σ} {bars : List (Bar α)} :
    refusal? source bars = none ↔ Chronological bars ∧ source.warmup ≤ bars.length := by
  unfold refusal?
  cases h : outOfOrder? 0 bars with
  | some found =>
    have : ¬Chronological bars := by
      rw [← outOfOrder?_eq_none_iff bars 0, h]
      simp
    simp [this]
  | none =>
    have := (outOfOrder?_eq_none_iff bars 0).mp h
    simp [this]

namespace Session

variable [Scalar α] {source : SignalSource α σ} {costs : AccountSettings α}
  {s s' : Session α σ} {bar : Bar α}

/-! ## One bar

A step is an answer, a movement of the book and a point of the curve. What the book does is the
relation `Movement`, and the lemmas here are about the rest. -/

/-- **What a step that succeeds does**, and all that it does. Later proofs cite this and what
follows from it, and never open the step again. -/
theorem step_eq_iff :
    s.step source costs bar = (s', none) ↔
      ∃ book,
        Movement costs source.positionSize (s.ask source bar).2 bar s.book book ∧
        s' = Session.record { (s.ask source bar).1 with book } bar := by
  have hbook : s.book = (s.ask source bar).1.book := rfl
  unfold step
  simp only [← act_eq_ok_iff, hbook]
  cases h : act costs source.positionSize (s.ask source bar).2 bar (s.ask source bar).1.book with
  | error fault => simp
  | ok book =>
    simp only [Prod.mk.injEq, and_true, Except.ok.injEq, exists_eq_left']
    exact eq_comm

/-- A step fails for one reason: an entry that comes to a quantity takes more than the cash, and
more than its tolerance for rounding allows. A session whose numbers rule this out has no failing
step. -/
theorem step_eq_fault {fault : Fault α} (h : s.step source costs bar = (s', some fault)) :
    Buyable (entryPosition costs source.positionSize bar s.book).quantity ∧
      s.book.cash * (1 + Portfolio.cashTolerance) <
        (entryPosition costs source.positionSize bar s.book).cost := by
  unfold step at h
  cases hact : act costs source.positionSize (s.ask source bar).2 bar (s.ask source bar).1.book with
  | error fault =>
    exact act_eq_error hact
  | ok book =>
    simp only [hact, Prod.mk.injEq, reduceCtorEq, and_false] at h

section step

variable (h : s.step source costs bar = (s', none))

include h

theorem movement_step :
    Movement costs source.positionSize (s.ask source bar).2 bar s.book s'.book := by
  obtain ⟨book, hmove, rfl⟩ := step_eq_iff.mp h
  exact hmove

theorem seen_step : s'.seen = s.seen.push bar := by
  obtain ⟨book, -, rfl⟩ := step_eq_iff.mp h
  rfl

theorem state_step : s'.state = (source.signalFor s.state (s.seen.push bar)).1 := by
  obtain ⟨book, -, rfl⟩ := step_eq_iff.mp h
  rfl

theorem peak_step : s'.peak = Scalar.max s.peak (s'.book.equity bar.closing) := by
  obtain ⟨book, -, rfl⟩ := step_eq_iff.mp h
  rfl

theorem curve_step :
    s'.curve = ⟨bar.timestamp, s'.book.equity bar.closing,
      drawdown s'.peak (s'.book.equity bar.closing)⟩ :: s.curve := by
  obtain ⟨book, -, rfl⟩ := step_eq_iff.mp h
  rfl

end step

/-! ## Many bars

The two rules for walks, and what they need: a walk over a first bar, or a first part, and the
rest. -/

@[simp] theorem walk_nil : s.walk source costs [] = (s, none) := rfl

theorem walk_cons_of_ok {rest : List (Bar α)} (h : s.step source costs bar = (s', none)) :
    s.walk source costs (bar :: rest) = s'.walk source costs rest := by
  rw [walk, h]

theorem walk_cons_of_fault {rest : List (Bar α)} {fault : Fault α}
    (h : s.step source costs bar = (s', some fault)) :
    s.walk source costs (bar :: rest) = (s', some fault) := by
  rw [walk, h]

theorem walk_cons_eq_iff {rest : List (Bar α)} {s₂ : Session α σ} :
    s.walk source costs (bar :: rest) = (s₂, none) ↔
      ∃ s₁, s.step source costs bar = (s₁, none) ∧ s₁.walk source costs rest = (s₂, none) := by
  rcases h : s.step source costs bar with ⟨s₁, fault | fault⟩
  · rw [walk_cons_of_ok h]
    simp
  · rw [walk_cons_of_fault h]
    simp

theorem walk_append_eq_iff {first second : List (Bar α)} {s₂ : Session α σ} :
    s.walk source costs (first ++ second) = (s₂, none) ↔
      ∃ s₁, s.walk source costs first = (s₁, none) ∧
        s₁.walk source costs second = (s₂, none) := by
  induction first generalizing s with
  | nil => simp
  | cons bar rest ih =>
    simp only [List.cons_append, walk_cons_eq_iff, ih]
    constructor
    · rintro ⟨s₀, hstep, s₁, hfirst, hsecond⟩
      exact ⟨s₁, ⟨s₀, hstep, hfirst⟩, hsecond⟩
    · rintro ⟨s₁, ⟨s₀, hstep, hfirst⟩, hsecond⟩
      exact ⟨s₀, hstep, s₁, hfirst, hsecond⟩

theorem walk_concat {bars : List (Bar α)} {s₁ s₂ : Session α σ}
    (hwalk : s.walk source costs bars = (s₁, none))
    (hstep : s₁.step source costs bar = (s₂, none)) :
    s.walk source costs (bars ++ [bar]) = (s₂, none) :=
  walk_append_eq_iff.mpr ⟨s₁, hwalk, walk_cons_eq_iff.mpr ⟨s₂, hstep, walk_nil⟩⟩

/-- The invariant rule, from any place of a series on. The place is general because an induction on
the bars to come changes it with every step. -/
theorem walk_invariant_from {P : List (Bar α) → Session α σ → Prop} {bars : List (Bar α)}
    (hstep : ∀ past bar rest s s', bars = past ++ bar :: rest → P past s →
      s.step source costs bar = (s', none) → P (past ++ [bar]) s') :
    ∀ (rest past : List (Bar α)) {s s' : Session α σ}, bars = past ++ rest → P past s →
      s.walk source costs rest = (s', none) → P bars s' := by
  intro rest
  -- on the bars to come, so that those processed grow with every step
  induction rest with
  | nil =>
    intro past s s' hbars hs hwalk
    rw [walk_nil, Prod.mk.injEq] at hwalk
    obtain ⟨rfl, -⟩ := hwalk
    rw [hbars, List.append_nil]
    exact hs
  | cons bar rest ih =>
    intro past s s' hbars hs hwalk
    obtain ⟨s₁, h₁, hrest⟩ := walk_cons_eq_iff.mp hwalk
    refine ih (past ++ [bar]) ?_ (hstep past bar rest s s₁ hbars hs h₁) hrest
    rw [hbars, List.append_assoc, List.singleton_append]

/-- **The invariant rule**: what every step keeps, a walk keeps. The invariant is about the bars so
far and the session after them, and a step may look at the bars that are still to come. -/
theorem walk_invariant {P : List (Bar α) → Session α σ → Prop} {bars : List (Bar α)}
    (hstart : P [] s)
    (hstep : ∀ past bar rest s s', bars = past ++ bar :: rest → P past s →
      s.step source costs bar = (s', none) → P (past ++ [bar]) s')
    (hwalk : s.walk source costs bars = (s', none)) : P bars s' :=
  walk_invariant_from hstep bars [] rfl hstart hwalk

/-- **Progress**: if the invariant keeps every step from failing, a walk does not fail. A fault ends
a walk at its bar, so that without this a statement about the last session could be about none. -/
theorem walk_total {P : List (Bar α) → Session α σ → Prop} {bars : List (Bar α)}
    (hstart : P [] s)
    (hprogress : ∀ past bar rest s, bars = past ++ bar :: rest → P past s →
      ∃ s', s.step source costs bar = (s', none) ∧ P (past ++ [bar]) s') :
    ∃ s', s.walk source costs bars = (s', none) := by
  -- generalized over the bars processed, as in the invariant rule
  suffices ∀ (rest past : List (Bar α)) (s : Session α σ), bars = past ++ rest → P past s →
      ∃ s', s.walk source costs rest = (s', none) from this bars [] s rfl hstart
  intro rest
  induction rest with
  | nil =>
    intro past s _ _
    exact ⟨s, rfl⟩
  | cons bar rest ih =>
    intro past s hbars hs
    obtain ⟨s₁, h₁, hs₁⟩ := hprogress past bar rest s hbars hs
    obtain ⟨s', hs'⟩ := ih (past ++ [bar]) s₁ (by rw [hbars, List.append_assoc]; rfl) hs₁
    exact ⟨s', walk_cons_eq_iff.mpr ⟨s₁, h₁, hs'⟩⟩

/-- A walk does not fail if the cash covers whatever an entry takes. No invariant is needed when
every book has this, as books of exact numbers do. -/
theorem walk_of_covered
    (hcovered : ∀ (bar : Bar α) (p : Portfolio α),
      Buyable (entryPosition costs source.positionSize bar p).quantity →
        ¬p.cash * (1 + Portfolio.cashTolerance) <
          (entryPosition costs source.positionSize bar p).cost)
    (s : Session α σ) (bars : List (Bar α)) :
    ∃ last, s.walk source costs bars = (last, none) := by
  refine walk_total (P := fun _ _ => True) trivial ?_
  intro past bar rest s _ _
  rcases h : s.step source costs bar with ⟨s', fault | fault⟩
  · exact ⟨s', rfl, trivial⟩
  · obtain ⟨hbuyable, hcash⟩ := step_eq_fault h
    exact absurd hcash (hcovered bar s.book hbuyable)

theorem curve_walk {bars : List (Bar α)} (hwalk : s.walk source costs bars = (s', none)) :
    ∃ points, s'.curve = points ++ s.curve ∧
      points.map EquityPoint.timestamp = (bars.map Bar.timestamp).reverse := by
  refine walk_invariant
    (P := fun past t => ∃ points, t.curve = points ++ s.curve ∧
      points.map EquityPoint.timestamp = (past.map Bar.timestamp).reverse) ⟨[], rfl, rfl⟩ ?_ hwalk
  rintro past bar rest t t' _ ⟨points, hcurve, hpoints⟩ hstep
  refine ⟨_ :: points, by rw [curve_step hstep, hcurve]; rfl, ?_⟩
  rw [List.map_cons, hpoints, List.map_append, List.reverse_append]
  rfl

/-! ## What a record shows

A record lists the oldest first and a session the newest, since a session is built by adding in
front. -/

section record

variable (s : Session α σ) (costs : AccountSettings α) (completed : Bool)

@[simp] theorem toRecord_curve : (s.toRecord costs completed).curve = s.curve.reverse := rfl

@[simp] theorem toRecord_timestamps :
    (s.toRecord costs completed).timestamps = s.curve.reverse.map EquityPoint.timestamp := rfl

@[simp] theorem toRecord_trades : (s.toRecord costs completed).trades = s.book.log.reverse := rfl

@[simp] theorem toRecord_barsProcessed :
    (s.toRecord costs completed).barsProcessed = s.curve.length := List.length_reverse

theorem toRecord_totalReturn :
    (s.toRecord costs completed).totalReturn =
      (s.toRecord costs completed).finalEquity / costs.initialCapital - 1 := rfl

theorem toRecord_totalTrades :
    (s.toRecord costs completed).totalTrades = (s.toRecord costs completed).closedTrades.length :=
  rfl

end record

end Session

variable [Scalar α]

/-! ## The session of a run

Both are defined by a walk from the start and ignore whether it failed. They are used only where the
whole run succeeds, and then no part of it failed (`walk_take`). -/

/-- The session of a run after some bars. It depends on these bars and not on what comes after them,
which is how statements about the bars of a run can speak of its books. -/
def sessionAfter (source : SignalSource α σ) (costs : AccountSettings α) (state : σ)
    (bars : List (Bar α)) : Session α σ :=
  ((Session.start costs (source.reset state)).walk source costs bars).1

/-- The book of a run after some bars. -/
def bookAfter (source : SignalSource α σ) (costs : AccountSettings α) (state : σ)
    (bars : List (Bar α)) : Portfolio α :=
  (sessionAfter source costs state bars).book

section

variable {source : SignalSource α σ} {costs : AccountSettings α} {state : σ}
  {bars : List (Bar α)} {last : Session α σ}

theorem sessionAfter_eq
    (hwalk : (Session.start costs (source.reset state)).walk source costs bars = (last, none)) :
    sessionAfter source costs state bars = last := by
  rw [sessionAfter, hwalk]

/-- If a run gets to the end of a series, it gets to every place in it, and the rest of the run goes
on from there. -/
theorem walk_take
    (hwalk : (Session.start costs (source.reset state)).walk source costs bars = (last, none))
    (n : Nat) :
    (Session.start costs (source.reset state)).walk source costs (bars.take n) =
        (sessionAfter source costs state (bars.take n), none) ∧
      (sessionAfter source costs state (bars.take n)).walk source costs (bars.drop n) =
        (last, none) := by
  rw [← List.take_append_drop n bars] at hwalk
  obtain ⟨s, hfirst, hsecond⟩ := Session.walk_append_eq_iff.mp hwalk
  rw [sessionAfter_eq hfirst]
  exact ⟨hfirst, hsecond⟩

theorem step_sessionAfter
    (hwalk : (Session.start costs (source.reset state)).walk source costs bars = (last, none))
    {i : Nat} {bar : Bar α} (hbar : bars[i]? = some bar) :
    (sessionAfter source costs state (bars.take i)).step source costs bar =
      (sessionAfter source costs state (bars.take (i + 1)), none) := by
  obtain ⟨hfirst, hrest⟩ := walk_take hwalk i
  rw [drop_of_getElem? hbar] at hrest
  obtain ⟨s, hstep, -⟩ := Session.walk_cons_eq_iff.mp hrest
  rw [take_succ_of_getElem? hbar, sessionAfter_eq (Session.walk_concat hfirst hstep)]
  exact hstep

theorem length_curve
    (hwalk : (Session.start costs (source.reset state)).walk source costs bars = (last, none)) :
    last.curve.length = bars.length := by
  obtain ⟨points, hcurve, htimes⟩ := Session.curve_walk hwalk
  have hlength := congrArg List.length htimes
  have hstart : (Session.start costs (source.reset state)).curve = [] := rfl
  rw [hcurve, hstart, List.append_nil]
  simpa using hlength

/-- The points recorded over the first bars of a run are the first points that it records. The curve
is the part of a session that only grows; the log is not, and has its own lemma for this. -/
theorem curve_take
    (hwalk : (Session.start costs (source.reset state)).walk source costs bars = (last, none))
    (n : Nat) :
    (sessionAfter source costs state (bars.take n)).curve.reverse = last.curve.reverse.take n := by
  obtain ⟨hfirst, hsecond⟩ := walk_take hwalk n
  obtain ⟨late, hlate, -⟩ := Session.curve_walk hsecond
  -- the points of the second walk come after those of the first
  have hprefix : (sessionAfter source costs state (bars.take n)).curve.reverse <+:
      last.curve.reverse := by
    rw [hlate, List.reverse_append]
    exact List.prefix_append ..
  rw [List.prefix_iff_eq_take.mp hprefix, List.length_reverse, length_curve hfirst,
    List.length_take, ← length_curve hwalk, ← List.length_reverse, ← List.take_eq_take_min]

theorem curve_getElem?
    (hwalk : (Session.start costs (source.reset state)).walk source costs bars = (last, none))
    {i : Nat} {bar : Bar α} (hbar : bars[i]? = some bar) :
    last.curve.reverse[i]? =
      let after := sessionAfter source costs state (bars.take (i + 1))
      some ⟨bar.timestamp, after.book.equity bar.closing,
        drawdown after.peak (after.book.equity bar.closing)⟩ := by
  have hlt : i < bars.length := (List.getElem?_eq_some_iff.mp hbar).1
  have hpoint := Session.curve_step (step_sessionAfter hwalk hbar)
  have hlength := length_curve (walk_take hwalk i).1
  rw [List.length_take, Nat.min_eq_left (Nat.le_of_lt hlt)] at hlength
  rw [← List.getElem?_take_of_lt (Nat.lt_succ_self i), ← curve_take hwalk, hpoint,
    List.reverse_cons,
    List.getElem?_append_right (Nat.le_of_eq (by rw [List.length_reverse, hlength])),
    List.length_reverse, hlength, Nat.sub_self]
  rfl

theorem finalEquity_eq
    (hwalk : (Session.start costs (source.reset state)).walk source costs bars = (last, none))
    {bar : Bar α} (hlast : bars.getLast? = some bar) (completed : Bool) :
    (last.toRecord costs completed).finalEquity = last.book.equity bar.closing := by
  have hbar : bars[bars.length - 1]? = some bar := List.getLast?_eq_getElem? ▸ hlast
  have hpos : 0 < bars.length := List.length_pos_of_mem (List.mem_of_getLast? hlast)
  have hstep := step_sessionAfter hwalk hbar
  rw [Nat.sub_add_cancel hpos, List.take_length, sessionAfter_eq hwalk] at hstep
  unfold Session.toRecord
  rw [Session.curve_step hstep]

end

/-! ## Whole runs

A run is refused, or it fails at a bar, or it makes a record. The theorems about records begin with
the equivalence here. -/

/-- **When a run succeeds**, and what its record is. The three conditions are checked in this order,
so that a series can be refused without any bar having been looked at. -/
theorem replay_eq_ok_iff {source : SignalSource α σ} {costs : AccountSettings α}
    {limit : Option Nat} {bars : List (Bar α)} {state : σ} {r : RunRecord α} :
    (replay source costs limit bars state).2 = .ok r ↔
      Chronological bars ∧ source.warmup ≤ bars.length ∧
        ∃ s, (Session.start costs (source.reset state)).walk source costs (reached limit bars) =
            (s, none) ∧
          r = s.toRecord costs ((reached limit bars).length == bars.length) := by
  unfold replay
  cases h : refusal? source bars with
  | some fault =>
    -- what is refused is out of order or too short
    have : ¬(Chronological bars ∧ source.warmup ≤ bars.length) := by
      rw [← refusal?_eq_none_iff, h]
      simp
    simp only [reduceCtorEq, false_iff]
    rintro ⟨hbars, hwarmup, -⟩
    exact this ⟨hbars, hwarmup⟩
  | none =>
    obtain ⟨hbars, hwarmup⟩ := refusal?_eq_none_iff.mp h
    rcases hwalk : (Session.start costs (source.reset state)).walk source costs
      (reached limit bars) with ⟨s, fault | fault⟩
    · simp only [hwalk, Except.ok.injEq, hbars, hwarmup, true_and, Prod.mk.injEq, and_true,
        exists_eq_left']
      exact eq_comm
    · simp [hwalk]

theorem replay_of_short {source : SignalSource α σ} {costs : AccountSettings α}
    {limit : Option Nat} {bars : List (Bar α)} {state : σ} (hbars : Chronological bars)
    (hshort : bars.length < source.warmup) :
    (replay source costs limit bars state).2 =
      .error (.accountSetting "bars" (.tooShort bars.length source.warmup source.name)) := by
  have hrefusal : refusal? source bars =
      some (.accountSetting "bars" (.tooShort bars.length source.warmup source.name)) := by
    rw [refusal?, (outOfOrder?_eq_none_iff bars 0).mpr hbars]
    exact if_pos hshort
  rw [replay, hrefusal]

end MarketReplay
