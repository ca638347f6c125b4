import MarketReplay.Proofs.Replay.Prefix

/-!
# Objects that are used again

An object of a rule may have a past when a run begins: it was asked about windows of other series,
asked along them, replayed, stopped in the middle of a replay, reset. What this leaves in it need
not be what any series leads to. A follower compares counts and not bars, so that after a window of
one series it takes the next bar of another for its own, and goes on with prices of both. Having
seen some bars (`PriceRule.Saw`) is therefore no invariant of such a past.

It need not be one, because a run begins with a reset. All that a reset asks of a state is that the
bisimulation of the rule knows it (`PriceRule.Known`), and no price and no reset leads to a state
that it does not know. **`replay_after_uses`**: whatever was done with an object before, a replay
returns what it returns for a new one, and so do all replays after it.

As in `MarketReplay.Proofs.Replay.Prefix` no law of numbers is used.
-/

set_option autoImplicit false

namespace MarketReplay

variable {α σ : Type}

/-! ## What questions keep

A property of states that a source never leaves by itself. It is stated for any source, and the
rules get one from their bisimulation. -/

namespace SignalSource

/-- Neither a reset nor a question leads out of the states with a property. By this the property
holds after any use, since every use is made of these two. -/
structure Keeps (source : SignalSource α σ) (I : σ → Prop) : Prop where
  reset : ∀ {state}, I state → I (source.reset state)
  signalFor : ∀ {state} (window : Array (Bar α)), I state → I (source.signalFor state window).1

theorem Keeps.signalsAfter {source : SignalSource α σ} {I : σ → Prop} (h : source.Keeps I)
    (bars : List (Bar α)) {seen : Array (Bar α)} {state : σ} (hstate : I state) :
    I (source.signalsAfter seen state bars).1 := by
  induction bars generalizing seen state with
  | nil => exact hstate
  | cons bar rest ih =>
    apply ih
    exact h.signalFor _ hstate

end SignalSource

/-! ## States that a reset undoes

The states in question are those of a follower together with its count. The count needs nothing: a
reset sets it to zero, whatever it was. -/

namespace PriceRule

/-- The relation knows the state of the follower: it stands in the relation to some state, no matter
which. For such a state the bisimulation has something to say about the next reset. -/
def Known (R : σ → σ → Prop) (f : Follower σ) : Prop := ∃ t, R f.state t

variable {rule : PriceRule α σ} {R : σ → σ → Prop} {f : Follower σ} (hR : rule.Bisimulation R)

include hR

theorem known_fresh : Known R rule.fresh := ⟨_, hR.start⟩

theorem known_restart (h : Known R f) : Known R (rule.restart f) := by
  obtain ⟨t, ht⟩ := h
  exact ⟨_, hR.reset ht⟩

theorem known_follow (h : Known R f) (bar : Bar α) : Known R (rule.follow f bar).1 := by
  obtain ⟨t, ht⟩ := h
  exact ⟨_, (hR.observe bar.closing ht).1⟩

theorem known_foldl (h : Known R f) (bars : List (Bar α)) :
    Known R (bars.foldl (fun f bar => (rule.follow f bar).1) f) := by
  induction bars generalizing f with
  | nil => exact h
  | cons bar rest ih =>
    apply ih
    exact known_follow hR h bar

/-- **No question leads to a state that the relation does not know**, whether the follower goes on
from where it is or starts over. Both kinds of catching up feed it prices one by one. -/
theorem keeps_known : rule.source.Keeps (Known R) where
  reset h := known_restart hR h
  signalFor := by
    intro f window h
    show Known R (rule.signalFor f window).1
    unfold signalFor
    cases window.back? with
    | none => exact known_restart hR h
    | some bar =>
      apply known_follow hR
      unfold caughtUp
      split
      · exact h
      · rw [← Array.foldl_toList]
        exact known_foldl hR (known_restart hR h) _

theorem answersBy_of_known (h : Known R f) : rule.source.AnswersBy rule.answer f := by
  obtain ⟨t, ht⟩ := h
  have hrestart : rule.Saw R [] (rule.restart f) := ⟨rfl, hR.reset ht⟩
  intro bars
  exact (signalsAfter_saw hR bars [] hrestart).2

end PriceRule

variable [Scalar α]

/-! ## The past of an object

Everything that can be done with an object, as data. Replays are among it, with their costs and
limits, since an object may have been stopped in the middle of one. -/

theorem Session.fst_state_step (source : SignalSource α σ) (costs : AccountSettings α)
    (s : Session α σ) (bar : Bar α) :
    (s.step source costs bar).1.state = (source.signalFor s.state (s.seen.push bar)).1 := by
  unfold Session.step
  simp only []
  split
  · rfl
  · rfl

/-- What may be done with an object. Runs that are refused or that stop early are among it. -/
inductive Use (α : Type) where
  /-- It is asked at the end of some bars. -/
  | ask (window : List (Bar α))
  | reset
  /-- It is asked along a series. -/
  | askAll (bars : List (Bar α))
  /-- A series is replayed with it, up to a limit if there is one. -/
  | replay (costs : AccountSettings α) (limit : Option Nat) (bars : List (Bar α))

namespace SignalSource

variable {source : SignalSource α σ} {I : σ → Prop}

theorem Keeps.walk (h : source.Keeps I) (costs : AccountSettings α) (bars : List (Bar α))
    {s : Session α σ} (hs : I s.state) : I (s.walk source costs bars).1.state := by
  induction bars generalizing s with
  | nil => exact hs
  | cons bar rest ih =>
    have hnext : I (s.step source costs bar).1.state := by
      rw [Session.fst_state_step]
      exact h.signalFor _ hs
    rcases hstep : s.step source costs bar with ⟨s', _ | fault⟩
    · rw [hstep] at hnext
      rw [Session.walk_cons_of_ok hstep]
      exact ih hnext
    · rw [hstep] at hnext
      rw [Session.walk_cons_of_fault hstep]
      exact hnext

/-- A replay keeps what questions keep, whether it succeeds, fails or is refused. A refused one does
not even reset the source. -/
theorem Keeps.replay (h : source.Keeps I) (costs : AccountSettings α) (limit : Option Nat)
    (bars : List (Bar α)) {state : σ} (hstate : I state) :
    I (MarketReplay.replay source costs limit bars state).1 := by
  unfold MarketReplay.replay
  cases refusal? source bars with
  | some fault => exact hstate
  | none =>
    have hwalk := h.walk costs (reached limit bars)
      (s := Session.start costs (source.reset state)) (h.reset hstate)
    -- a run that fails hands back the state of its last bar, as one that succeeds does
    simp only []
    split
    · rename_i hlast
      rw [hlast] at hwalk
      exact hwalk
    · rename_i hlast
      rw [hlast] at hwalk
      exact hwalk

def afterUse (source : SignalSource α σ) (state : σ) : Use α → σ
  | .ask window => (source.signalFor state window.toArray).1
  | .reset => source.reset state
  | .askAll bars => (source.signals state bars).1
  | .replay costs limit bars => (MarketReplay.replay source costs limit bars state).1

def afterUses (source : SignalSource α σ) (state : σ) (uses : List (Use α)) : σ :=
  uses.foldl source.afterUse state

theorem Keeps.afterUse (h : source.Keeps I) {state : σ} (hstate : I state) (use : Use α) :
    I (source.afterUse state use) := by
  cases use with
  | ask window => exact h.signalFor _ hstate
  | reset => exact h.reset hstate
  | askAll bars => exact h.signalsAfter bars (h.reset hstate)
  | replay costs limit bars => exact h.replay costs limit bars hstate

theorem Keeps.afterUses (h : source.Keeps I) {state : σ} (hstate : I state)
    (uses : List (Use α)) : I (source.afterUses state uses) := by
  induction uses generalizing state with
  | nil => exact hstate
  | cons use rest ih =>
    apply ih
    exact h.afterUse hstate use

end SignalSource

/-! ## Runs of an object with a past

What a replay returns depends on the source's answers after the reset and on nothing else of its
state. -/

/-- What a replay returns, said without the state that it hands back. The state differs between
objects, and a proof that two replays return the same must not compare it. -/
theorem replay_result (source : SignalSource α σ) (costs : AccountSettings α) (limit : Option Nat)
    (bars : List (Bar α)) (state : σ) :
    (replay source costs limit bars state).2 =
      match refusal? source bars with
      | some fault => .error fault
      | none =>
        let run := (Session.start costs (source.reset state)).walk source costs (reached limit bars)
        match run.2 with
        | some fault => .error fault
        | none => .ok (run.1.toRecord costs ((reached limit bars).length == bars.length)) := by
  unfold replay
  cases refusal? source bars with
  | some fault => rfl
  | none =>
    simp only []
    rcases (Session.start costs (source.reset state)).walk source costs (reached limit bars) with
      ⟨s, _ | fault⟩
    · rfl
    · rfl

/-- Two objects that answer by the same function are replayed alike, failures included. -/
theorem replay_of_answersBy {source : SignalSource α σ} {answer : List (Bar α) → Signal}
    {state state' : σ} (h : source.AnswersBy answer state) (h' : source.AnswersBy answer state')
    (costs : AccountSettings α) (limit : Option Nat) (bars : List (Bar α)) :
    (replay source costs limit bars state).2 = (replay source costs limit bars state').2 := by
  have hstart : (Session.start costs (source.reset state)).Agrees
      (Session.start costs (source.reset state')) := ⟨rfl, rfl, rfl⟩
  obtain ⟨hfault, hagrees⟩ :=
    Session.walk_agrees costs rfl (reached limit bars) hstart (h.signals_eq h' _)
  simp only [replay_result, hfault, hagrees.toRecord_eq]

/-- A series replayed a number of times with one object. Each replay begins with the state that the
one before has left. -/
def replays (source : SignalSource α σ) (costs : AccountSettings α) (bars : List (Bar α)) :
    Nat → σ → List (Except (Fault α) (RunRecord α))
  | 0, _ => []
  | n + 1, state =>
    let run := replay source costs none bars state
    run.2 :: replays source costs bars n run.1

namespace PriceRule

variable {rule : PriceRule α σ} {R : σ → σ → Prop} {f : Follower σ} (hR : rule.Bisimulation R)

include hR

theorem replay_of_known (h : Known R f) (costs : AccountSettings α) (limit : Option Nat)
    (bars : List (Bar α)) :
    (replay rule.source costs limit bars f).2 =
      (replay rule.source costs limit bars rule.fresh).2 := by
  apply replay_of_answersBy
  · exact answersBy_of_known hR h
  · exact answersBy_of_known hR (known_fresh hR)

theorem replays_of_known (h : Known R f) (costs : AccountSettings α) (bars : List (Bar α))
    (n : Nat) :
    replays rule.source costs bars n f =
      List.replicate n (replay rule.source costs none bars rule.fresh).2 := by
  induction n generalizing f with
  | zero => rfl
  | succ n ih =>
    -- the run that is over has left a known state as well
    rw [replays, List.replicate_succ, replay_of_known hR h,
      ih ((keeps_known hR).replay costs none bars h)]

theorem replays_after_uses (uses : List (Use α)) (costs : AccountSettings α)
    (bars : List (Bar α)) :
    let f := rule.source.afterUses rule.fresh uses
    (∀ limit, (replay rule.source costs limit bars f).2 =
      (replay rule.source costs limit bars rule.fresh).2) ∧
    ∀ n, replays rule.source costs bars n f =
      List.replicate n (replay rule.source costs none bars rule.fresh).2 := by
  intro f
  have hf : Known R f := (keeps_known hR).afterUses (known_fresh hR) uses
  exact ⟨fun limit => replay_of_known hR hf costs limit bars, replays_of_known hR hf costs bars⟩

end PriceRule

/-! ## Both rules -/

/-- **A run does not depend on what was done with the object before.** Whatever uses an object of a
rule has had, on whatever series, a replay returns what it returns for a new object, a failure as
well as a record; and so does every one of any number of replays in a row. -/
theorem replay_after_uses :
    (∀ (settings : CrossSettings α) (rule : PriceRule α (AverageCross.State α)),
      AverageCross.ofSettings settings = .ok rule →
      ∀ (uses : List (Use α)) (costs : AccountSettings α) (bars : List (Bar α)),
        let f := rule.source.afterUses rule.fresh uses
        (∀ limit, (replay rule.source costs limit bars f).2 =
          (replay rule.source costs limit bars rule.fresh).2) ∧
        ∀ n, replays rule.source costs bars n f =
          List.replicate n (replay rule.source costs none bars rule.fresh).2) ∧
    ∀ (settings : ReversionSettings α) (rule : PriceRule α (Reversion.State α)),
      Reversion.ofSettings settings = .ok rule →
      ∀ (uses : List (Use α)) (costs : AccountSettings α) (bars : List (Bar α)),
        let f := rule.source.afterUses rule.fresh uses
        (∀ limit, (replay rule.source costs limit bars f).2 =
          (replay rule.source costs limit bars rule.fresh).2) ∧
        ∀ n, replays rule.source costs bars n f =
          List.replicate n (replay rule.source costs none bars rule.fresh).2 := by
  constructor
  · intro settings rule hrule
    obtain ⟨-, rfl⟩ := checked_eq_ok_iff.mp hrule
    exact PriceRule.replays_after_uses (AverageCross.bisimulation settings)
  · intro settings rule hrule
    obtain ⟨-, rfl⟩ := checked_eq_ok_iff.mp hrule
    exact PriceRule.replays_after_uses (Reversion.bisimulation settings)

/-- Another series over the times of the sample bars. -/
def otherBars : List (Bar Rat) :=
  [5, 7, 3, 8, 2].zipIdx.map fun (price, i) => .ofPrices (i : Int) price price price price 1

/-- Uses that leave the rules between the two series: after three bars of the one comes the fourth
bar of the other. -/
def sampleUses : List (Use Rat) :=
  [.replay .usual none otherBars, .replay .usual (some 2) sampleBars, .askAll otherBars, .reset,
    .ask (sampleBars.take 3), .ask (otherBars.take 4)]

/-- The rules have seen four bars of no series there is, and are replayed as if they were new. -/
theorem replay_after_sampleUses :
    let used := sampleRule.source.afterUses sampleRule.fresh sampleUses
    let used' := sampleReversion.source.afterUses sampleReversion.fresh sampleUses
    used.seen = 4 ∧ used.state.averages? = some (8, 10) ∧
      (replay sampleRule.source .usual none sampleBars used).2 =
        (replay sampleRule.source .usual none sampleBars sampleRule.fresh).2 ∧
      used'.seen = 4 ∧
      replays sampleReversion.source .usual sampleBars 2 used' =
        List.replicate 2 (replay sampleReversion.source .usual none sampleBars
          sampleReversion.fresh).2 := by
  intro used used'
  have hused : used.seen = 4 ∧ used.state.averages? = some (8, 10) := by decide +kernel
  have hused' : used'.seen = 4 := by decide +kernel
  obtain ⟨hrun, -⟩ :=
    replay_after_uses.1 _ _ ofSettings_sampleRule sampleUses AccountSettings.usual sampleBars
  obtain ⟨-, hruns⟩ :=
    replay_after_uses.2 _ _ ofSettings_sampleReversion sampleUses AccountSettings.usual sampleBars
  exact ⟨hused.1, hused.2, hrun none, hused', hruns 2⟩

end MarketReplay
