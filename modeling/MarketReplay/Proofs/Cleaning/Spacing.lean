import Mathlib.Data.List.Chain
import MarketReplay.Cleaning.Interval

/-!
# Steps and even spacing

What holds of all steps from one timestamp to the next holds between neighbours, and the other way
round (`forall_mem_steps_iff`). Timestamps that advance by one interval throughout (`EvenlySpaced`)
are in order, and all their steps are that interval.

Facts about a series are stated between neighbours (`List.IsChain`), and the median is found from a
list of steps; this is the bridge between the two, and the only place that recurses along `steps`.
-/

set_option autoImplicit false

namespace MarketReplay

theorem forall_mem_steps_iff {p : Int → Prop} {timestamps : List Int} :
    (∀ d ∈ steps timestamps, p d) ↔ timestamps.IsChain fun a b => p (b - a) := by
  fun_induction steps timestamps with
  | case1 => simp
  | case2 a => simp
  | case3 a b rest ih => rw [List.forall_mem_cons, ih, List.isChain_cons_cons]

@[simp] theorem length_steps (timestamps : List Int) :
    (steps timestamps).length = timestamps.length - 1 := by
  fun_induction steps timestamps with
  | case1 => rfl
  | case2 a => rfl
  | case3 a b rest ih =>
    simp only [List.length_cons, ih]
    omega

/-- Each timestamp is the one before it and an interval. Made-up series are spaced like this, and
such a spacing has the interval for its median. -/
def EvenlySpaced (interval : Int) (timestamps : List Int) : Prop :=
  timestamps.IsChain fun a b => b = a + interval

namespace EvenlySpaced

variable {interval : Int} {timestamps : List Int}

theorem eq_of_mem_steps (h : EvenlySpaced interval timestamps) :
    ∀ d ∈ steps timestamps, d = interval := by
  refine forall_mem_steps_iff.mpr (h.imp ?_)
  intro a b hb
  omega

theorem pairwise_lt (h : EvenlySpaced interval timestamps) (hinterval : 0 < interval) :
    timestamps.Pairwise (· < ·) := by
  rw [← List.isChain_iff_pairwise]
  refine h.imp ?_
  intro a b hb
  omega

end EvenlySpaced

end MarketReplay
