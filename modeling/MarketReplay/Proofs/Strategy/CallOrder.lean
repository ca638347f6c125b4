import MarketReplay.Proofs.Indicator.RelativeStrength
import MarketReplay.Proofs.Indicator.RollingWindow
import MarketReplay.Proofs.Strategy.Answers
import MarketReplay.Scalar.Exact
import MarketReplay.Strategy.AverageCross
import MarketReplay.Strategy.Reversion

/-!
# The order of calls

The two rules of this library, as objects that are called again and again: asked about prefixes of a
series in any order, reset, and asked along the whole series. **The answer about a prefix is the one
that a new object gives when it is fed the bars in order**
(`answers_independent_of_calls`).

By `PriceRule.signalFor_saw` this needs no more than a bisimulation for each rule. For crossing
averages the states in it hold the same in both windows (`AverageCross.Alike`), whatever their rings
look like. Relative strength keeps no ring, and a reset leads to the start itself; all that the
relation adds to equality is the period, which a reset reads off the state (`Reversion.Alike`).
-/

set_option autoImplicit false

namespace MarketReplay

variable {α σ : Type}

/-! ## Calls

The public calls that touch a source's state, as data, so that a history is a list and "whatever was
asked before" is a quantifier. A cancelled run asks about prefixes too and needs no call of its
own. -/

/-- What is asked of a source about a series. A count beyond the series asks about all of it, and a
count of zero about no bars. -/
inductive Call where
  /-- The answer at the end of the first bars. -/
  | ask (count : Nat)
  | reset
  /-- The answers along the whole series. -/
  | askAll
deriving DecidableEq, Repr

namespace SignalSource

/-- The state of a source after a call about a series. -/
def afterCall (source : SignalSource α σ) (bars : List (Bar α)) (state : σ) : Call → σ
  | .ask count => (source.signalFor state (bars.take count).toArray).1
  | .reset => source.reset state
  | .askAll => (source.signals state bars).1

def afterCalls (source : SignalSource α σ) (bars : List (Bar α)) (state : σ)
    (calls : List Call) : σ :=
  calls.foldl (source.afterCall bars) state

/-- The last answer when some bars are taken in order, one call for each, with the state that this
leads to. Without a bar there is nothing to do, at time zero. This is the sequential run that any
other order of calls is compared with. -/
def inOrder (source : SignalSource α σ) (state : σ) (bars : List (Bar α)) : σ × Signal :=
  let (state, signals) := source.signalsAfter #[] state bars
  (state, signals.getLast?.getD (.hold 0))

end SignalSource

namespace PriceRule

section calls

variable {rule : PriceRule α σ} {R : σ → σ → Prop} (hR : rule.Bisimulation R)

include hR

/-- A call about a series leaves a follower that saw a prefix of it. Which prefix depends on the
call: the one asked about, none after a reset, and the whole series after all answers. -/
theorem afterCall_saw {past bars : List (Bar α)} {f : Follower σ} (h : rule.Saw R past f)
    (hpast : past <+: bars) (call : Call) :
    ∃ past', past' <+: bars ∧ rule.Saw R past' (rule.source.afterCall bars f call) := by
  cases call with
  | ask count =>
    have htake : bars.take count <+: bars := List.take_prefix count bars
    exact ⟨bars.take count, htake, (signalFor_saw hR h hpast htake).1⟩
  | reset => exact ⟨[], List.nil_prefix, restart_saw hR h⟩
  | askAll => exact ⟨bars, List.prefix_refl bars, (signals_saw hR h bars).1⟩

theorem afterCalls_saw {past bars : List (Bar α)} {f : Follower σ} (calls : List Call)
    (h : rule.Saw R past f) (hpast : past <+: bars) :
    ∃ past', past' <+: bars ∧ rule.Saw R past' (rule.source.afterCalls bars f calls) := by
  induction calls generalizing past f with
  | nil => exact ⟨past, hpast, h⟩
  | cons call rest ih =>
    obtain ⟨past', hpast', h'⟩ := afterCall_saw hR h hpast call
    exact ih h' hpast'

theorem inOrder_saw (bars : List (Bar α)) :
    rule.Saw R bars (rule.source.inOrder rule.fresh bars).1 ∧
      (rule.source.inOrder rule.fresh bars).2 = rule.answer bars := by
  obtain ⟨hsaw, hanswers⟩ := signalsAfter_saw hR bars [] (fresh_saw hR)
  refine ⟨hsaw, ?_⟩
  show (rule.source.signalsAfter #[] rule.fresh bars).2.getLast?.getD (.hold 0) = _
  rw [List.getLast?_eq_getElem?, SignalSource.length_signalsAfter]
  rcases Nat.eq_zero_or_pos bars.length with hzero | hpos
  · rw [List.length_eq_zero_iff.mp hzero]
    rfl
  · have hlast := hanswers (bars.length - 1) (by omega)
    rw [Nat.sub_add_cancel hpos, List.take_length, List.nil_append] at hlast
    rw [hlast]
    rfl

/-- After any calls about a series, a follower answers about a prefix of it what a new one answers
in order, and nothing tells the two apart then. The answers along the whole series are the new one's
as well. It holds of every rule with a bisimulation; the two rules below only supply theirs. -/
theorem answers_after_calls (bars : List (Bar α)) (calls : List Call) (count : Nat) :
    let f := rule.source.afterCalls bars rule.fresh calls
    let asked := rule.source.signalFor f (bars.take count).toArray
    let fed := rule.source.inOrder rule.fresh (bars.take count)
    asked.2 = fed.2 ∧ rule.Saw R (bars.take count) asked.1 ∧ rule.Saw R (bars.take count) fed.1 ∧
      (rule.source.signals f bars).2 = (rule.source.signalsAfter #[] rule.fresh bars).2 := by
  intro f asked fed
  have hnil : [] <+: bars := List.nil_prefix
  have htake : bars.take count <+: bars := List.take_prefix count bars
  obtain ⟨past, hpast, hf⟩ := afterCalls_saw hR calls (fresh_saw hR) hnil
  obtain ⟨hasked, hanswer⟩ := signalFor_saw hR hf hpast htake
  obtain ⟨hfed, hanswer'⟩ := inOrder_saw hR (bars.take count)
  have hall := (signals_saw hR hf bars).2
  have hall' := (signalsAfter_saw hR bars [] (fresh_saw hR)).2
  exact ⟨hanswer.trans hanswer'.symm, hasked, hfed,
    eq_of_values (SignalSource.length_signalsAfter ..) (SignalSource.length_signalsAfter ..)
      hall hall'⟩

end calls

end PriceRule

theorem checked_eq_ok_iff {ε β : Type} {check : Except ε Unit} {made result : β} :
    (do check; return made) = .ok result ↔ check = .ok () ∧ made = result := by
  cases check with
  | error fault =>
    constructor
    · intro h
      cases h
    · rintro ⟨h, -⟩
      cases h
  | ok =>
    constructor
    · intro h
      cases h
      exact ⟨rfl, rfl⟩
    · rintro ⟨-, rfl⟩
      rfl

variable [Scalar α]

/-! ## Crossing averages

A reset clears the windows and leaves old values in their slots, so that the state after a reset is
not the one of the start. The relation says in which respects the two have to agree. -/

namespace AverageCross

/-- Both windows hold the same, and the standing at the bar before is the same. A reset needs to
know the capacities besides, since it keeps those of the windows it clears. -/
structure Alike (settings : CrossSettings α) (s t : State α) : Prop where
  fast : s.fast.Same t.fast
  slow : s.slow.Same t.slow
  standing_eq : s.standing = t.standing
  fast_capacity : s.fast.capacity = Nat.max settings.fastPeriod 1
  slow_capacity : s.slow.capacity = Nat.max settings.slowPeriod 1

variable {settings : CrossSettings α} {s t : State α}

theorem Alike.averages?_eq (h : Alike settings s t) : s.averages? = t.averages? := by
  unfold State.averages?
  rw [h.fast.mean?_eq, h.slow.mean?_eq]

theorem Alike.observe (h : Alike settings s t) (price : α) :
    Alike settings (observe s price).1 (observe t price).1 ∧
      (observe s price).2 = (observe t price).2 := by
  have hfast := (h.fast.push price).1
  have hslow := (h.slow.push price).1
  have hfastCapacity : (s.fast.push price).1.capacity = Nat.max settings.fastPeriod 1 :=
    (RollingWindow.capacity_push ..).trans h.fast_capacity
  have hslowCapacity : (s.slow.push price).1.capacity = Nat.max settings.slowPeriod 1 :=
    (RollingWindow.capacity_push ..).trans h.slow_capacity
  -- the means read the capacity, the sum and what the windows hold, and no slot that is empty
  have haverages :
      State.averages? ⟨(s.fast.push price).1, (s.slow.push price).1, t.standing⟩ =
        State.averages? ⟨(t.fast.push price).1, (t.slow.push price).1, t.standing⟩ :=
    Alike.averages?_eq ⟨hfast, hslow, rfl, hfastCapacity, hslowCapacity⟩
  unfold AverageCross.observe
  simp only [h.standing_eq, haverages]
  split
  · exact ⟨⟨hfast, hslow, rfl, hfastCapacity, hslowCapacity⟩, rfl⟩
  · exact ⟨⟨hfast, hslow, rfl, hfastCapacity, hslowCapacity⟩, rfl⟩

/-- **What the old values in the slots are does not show.** Every price keeps the windows alike, and
their means with them. -/
theorem bisimulation (settings : CrossSettings α) :
    (rule settings).Bisimulation (Alike settings) where
  start := ⟨⟨rfl, rfl, rfl⟩, ⟨rfl, rfl, rfl⟩, rfl, rfl, rfl⟩
  reset := by
    intro s t h
    exact ⟨.clear h.fast_capacity, .clear h.slow_capacity, rfl, h.fast_capacity, h.slow_capacity⟩
  observe price h := h.observe price

end AverageCross

/-! ## Reversion

A reset makes a new state of the period that the old one has, and every price leaves the period as
it is. The states are then equal, not just alike. -/

namespace Reversion

/-- The states are the same, of the period that a reset returns to. The period is part of the state,
and a reset takes it from there. -/
structure Alike (settings : ReversionSettings α) (s t : State α) : Prop where
  eq : s = t
  period : s.strength.period = Nat.max settings.period 1

variable {settings : ReversionSettings α}

theorem period_observe (s : State α) (price : α) :
    (observe settings s price).1.strength.period = s.strength.period := by
  unfold observe
  simp only []
  split <;> exact s.strength.period_update price

theorem bisimulation (settings : ReversionSettings α) :
    (rule settings).Bisimulation (Alike settings) where
  start := ⟨rfl, rfl⟩
  reset := by
    intro s t h
    have hperiod : Nat.max (Nat.max settings.period 1) 1 = Nat.max settings.period 1 :=
      Nat.max_eq_left (Nat.le_max_right ..)
    have hreset : reset s = start settings := by
      simp only [reset, start, RelativeStrength.reset, RelativeStrength.start, h.period, hperiod]
    exact ⟨hreset, by show (reset s).strength.period = _; rw [hreset]; rfl⟩
  observe := by
    intro s t price h
    obtain ⟨rfl, hperiod⟩ := h
    exact ⟨⟨rfl, (period_observe s price).trans hperiod⟩, rfl⟩

end Reversion

/-! ## Both rules

The two statements differ in one point: crossing averages also show their means, and these agree as
well. -/

/-- **The answers of a rule do not depend on the order of calls.** Whatever calls about a series an
object has had, about a prefix of the series it answers what a new object answers at the end of the
prefix, and then shows the same averages; along the whole series it gives the new one's answers. -/
theorem answers_independent_of_calls :
    (∀ (settings : CrossSettings α) (rule : PriceRule α (AverageCross.State α)),
      AverageCross.ofSettings settings = .ok rule →
      ∀ (bars : List (Bar α)) (calls : List Call) (count : Nat),
        let f := rule.source.afterCalls bars rule.fresh calls
        let asked := rule.source.signalFor f (bars.take count).toArray
        let fed := rule.source.inOrder rule.fresh (bars.take count)
        asked.2 = fed.2 ∧ asked.1.state.averages? = fed.1.state.averages? ∧
          (rule.source.signals f bars).2 = (rule.source.signalsAfter #[] rule.fresh bars).2) ∧
    ∀ (settings : ReversionSettings α) (rule : PriceRule α (Reversion.State α)),
      Reversion.ofSettings settings = .ok rule →
      ∀ (bars : List (Bar α)) (calls : List Call) (count : Nat),
        let f := rule.source.afterCalls bars rule.fresh calls
        let asked := rule.source.signalFor f (bars.take count).toArray
        let fed := rule.source.inOrder rule.fresh (bars.take count)
        asked.2 = fed.2 ∧
          (rule.source.signals f bars).2 = (rule.source.signalsAfter #[] rule.fresh bars).2 := by
  constructor
  · intro settings rule hrule bars calls count
    obtain ⟨-, rfl⟩ := checked_eq_ok_iff.mp hrule
    obtain ⟨hanswer, hasked, hfed, hall⟩ :=
      PriceRule.answers_after_calls (AverageCross.bisimulation settings) bars calls count
    exact ⟨hanswer, hasked.state.averages?_eq.trans hfed.state.averages?_eq.symm, hall⟩
  · intro settings rule hrule bars calls count
    obtain ⟨-, rfl⟩ := checked_eq_ok_iff.mp hrule
    obtain ⟨hanswer, -, -, hall⟩ :=
      PriceRule.answers_after_calls (Reversion.bisimulation settings) bars calls count
    exact ⟨hanswer, hall⟩

/-- Closing prices at which a rule of two short averages buys, sells at a loss, and buys again. -/
def sampleBars : List (Bar Rat) :=
  [10, 9, 12, 11, 15].zipIdx.map fun (price, i) => .ofPrices (i : Int) price price price price 1

def sampleRule : PriceRule Rat (AverageCross.State Rat) := AverageCross.rule ⟨1, 2, 1 / 2⟩

def sampleReversion : PriceRule Rat (Reversion.State Rat) := Reversion.rule ⟨1, 30, 70, 1 / 2⟩

def sampleCalls : List Call := [.ask 4, .reset, .ask 2, .askAll, .ask 0, .ask 5, .ask 1]

theorem ofSettings_sampleRule : AverageCross.ofSettings ⟨1, 2, 1 / 2⟩ = .ok sampleRule := by
  refine checked_eq_ok_iff.mpr ⟨?_, rfl⟩
  rw [CrossSettings.check, if_neg (by decide), if_neg (by decide), if_neg (by decide)]
  exact if_pos (by decide +kernel)

theorem ofSettings_sampleReversion :
    Reversion.ofSettings ⟨1, 30, 70, 1 / 2⟩ = .ok sampleReversion := by
  refine checked_eq_ok_iff.mpr ⟨?_, rfl⟩
  rw [ReversionSettings.check, if_neg (by decide), if_pos (by decide +kernel)]
  exact if_pos (by decide +kernel)

/-- Asked about three bars after all these calls, the rules answer to the rise from 9 to 12. -/
theorem answers_after_sampleCalls :
    let asked := sampleRule.source.signalFor
      (sampleRule.source.afterCalls sampleBars sampleRule.fresh sampleCalls)
      (sampleBars.take 3).toArray
    let asked' := sampleReversion.source.signalFor
      (sampleReversion.source.afterCalls sampleBars sampleReversion.fresh sampleCalls)
      (sampleBars.take 3).toArray
    asked.2 = ⟨2, .buy⟩ ∧ asked.1.state.averages? = some (12, 21 / 2) ∧
      asked'.2 = ⟨2, .sell⟩ := by
  obtain ⟨hanswer, haverages, -⟩ :=
    answers_independent_of_calls.1 _ _ ofSettings_sampleRule sampleBars sampleCalls 3
  obtain ⟨hanswer', -⟩ :=
    answers_independent_of_calls.2 _ _ ofSettings_sampleReversion sampleBars sampleCalls 3
  have hfed : (sampleRule.source.inOrder sampleRule.fresh (sampleBars.take 3)).2 = ⟨2, .buy⟩ ∧
      (sampleRule.source.inOrder sampleRule.fresh (sampleBars.take 3)).1.state.averages? =
        some (12, 21 / 2) := by
    decide +kernel
  have hfed' : (sampleReversion.source.inOrder sampleReversion.fresh (sampleBars.take 3)).2 =
      ⟨2, .sell⟩ := by
    decide +kernel
  exact ⟨hanswer.trans hfed.1, haverages.trans hfed.2, hanswer'.trans hfed'⟩

end MarketReplay
