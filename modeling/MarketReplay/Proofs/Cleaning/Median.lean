import Mathlib.Data.Int.ConditionallyCompleteOrder
import Mathlib.Order.ConditionallyCompleteLattice.Basic
import MarketReplay.Proofs.Cleaning.Halves
import MarketReplay.Proofs.Cleaning.Spacing

/-!
# The median interval

Timestamps may come in any order, and some of them more than once. Their median interval is told
from the steps that lead forwards (`forwardSteps`), whatever order these come in: it is the middle
of the same steps sorted (`medianInterval?_eq_middle?_sort`). So **it is a median of them, and
timestamps without a step forwards have none** (`medianInterval?_isMedian`).

Timestamps in order make steps that all lead forwards. They have a median as soon as there are two
of them, and **not more than half of the steps are longer** (`two_mul_countP_steps_le`). Where they
are evenly spaced, their interval is the median (`medianInterval?_of_even`).
-/

set_option autoImplicit false

namespace MarketReplay

variable {timestamps : List Int} {m : Int}

/-! ## Steps forwards

The steps as a multiset, which is the right thing to have for what does not depend on their order.
The definition goes through pairs of neighbours and not through `steps`, so that it can be read on
its own. -/

/-- The differences of neighbouring timestamps that lead forwards. They are a multiset, since the
median is to be told without regard to their order. -/
def forwardSteps (timestamps : List Int) : Multiset Int :=
  (List.zipWith (fun a b => b - a) timestamps timestamps.tail : Multiset Int).filter (0 < ·)

theorem steps_eq_zipWith (timestamps : List Int) :
    steps timestamps = List.zipWith (fun a b => b - a) timestamps timestamps.tail := by
  fun_induction steps timestamps with
  | case1 => rfl
  | case2 a => rfl
  | case3 a b rest ih =>
    rw [ih]
    rfl

theorem forwardSteps_eq_filter (timestamps : List Int) :
    forwardSteps timestamps = (steps timestamps : Multiset Int).filter (0 < ·) := by
  rw [forwardSteps, steps_eq_zipWith]

theorem pos_of_mem_forwardSteps {d : Int} (h : d ∈ forwardSteps timestamps) : 0 < d :=
  (Multiset.mem_filter.mp h).2

/-- **The median interval is the middle of the steps forwards, sorted.** The sort of the definition
is that of the multiset, and from here on no order of arrival is left. -/
theorem medianInterval?_eq_middle?_sort (timestamps : List Int) :
    medianInterval? timestamps = middle? (forwardSteps timestamps).sort := by
  rw [forwardSteps_eq_filter, Multiset.filter_coe, Multiset.coe_sort]
  rfl

theorem isMiddle_forwardSteps (hm : medianInterval? timestamps = some m) :
    IsMiddle (forwardSteps timestamps) m := by
  rw [medianInterval?_eq_middle?_sort] at hm
  have hmiddle := isMiddle_of_middle? (Multiset.pairwise_sort _ _) hm
  rwa [Multiset.sort_eq] at hmiddle

theorem medianInterval?_eq_none_iff_forwardSteps :
    medianInterval? timestamps = none ↔ forwardSteps timestamps = 0 := by
  rw [medianInterval?_eq_middle?_sort, middle?_eq_none_iff, ← Multiset.coe_eq_zero,
    Multiset.sort_eq]

theorem medianInterval?_pos (hm : medianInterval? timestamps = some m) : 0 < m := by
  obtain ⟨low, hlow, hle⟩ := (isMiddle_forwardSteps hm).exists_le_ge.1
  exact (pos_of_mem_forwardSteps hlow).trans_le hle

/-- **The median interval is a median of the steps forwards**, and leads forwards itself.
Timestamps without such a step have none. Timestamps with the same steps forwards have the same
median, in whatever order they make them. -/
theorem medianInterval?_isMedian (timestamps : List Int) :
    (medianInterval? timestamps = none ↔ forwardSteps timestamps = 0) ∧
      (∀ m, medianInterval? timestamps = some m →
        0 < m ∧ IsMedian (forwardSteps timestamps) m) ∧
      ∀ other, forwardSteps other = forwardSteps timestamps →
        medianInterval? other = medianInterval? timestamps := by
  refine ⟨medianInterval?_eq_none_iff_forwardSteps, ?_, ?_⟩
  · exact fun m hm => ⟨medianInterval?_pos hm, (isMiddle_forwardSteps hm).isMedian⟩
  · intro other hsame
    rw [medianInterval?_eq_middle?_sort, hsame, ← medianInterval?_eq_middle?_sort]

/-- Steps of 60 and of 25, among others that do not lead forwards, have a median of 42. -/
theorem medianInterval?_isMedian_sample :
    medianInterval? [100, 0, 60, 60, 40, 65] = some 42 ∧
      IsMedian (forwardSteps [100, 0, 60, 60, 40, 65]) 42 := by
  have hordered : medianInterval? [0, 25, 85] = some 42 := by
    have hsteps : (steps [0, 25, 85]).filter (fun d => decide (0 < d)) = [25, 60] := by decide
    rw [medianInterval?, hsteps, List.mergeSort_of_pairwise (by decide)]
    rfl
  have hmedian : medianInterval? [100, 0, 60, 60, 40, 65] = some 42 :=
    ((medianInterval?_isMedian [0, 25, 85]).2.2 _ (by decide)).trans hordered
  exact ⟨hmedian, ((medianInterval?_isMedian _).2.1 42 hmedian).2⟩

/-! ## Timestamps in order

A cleaned series has timestamps in order, and for these the statements become simpler: all steps
lead forwards, and there is one step fewer than there are bars. -/

theorem forwardSteps_of_pairwise_lt (h : timestamps.Pairwise (· < ·)) :
    forwardSteps timestamps = steps timestamps := by
  have hforward : ∀ d ∈ steps timestamps, 0 < d := by
    refine forall_mem_steps_iff.mpr (List.Pairwise.isChain (h.imp ?_))
    intro a b hab
    omega
  rw [forwardSteps_eq_filter]
  exact Multiset.filter_eq_self.mpr hforward

theorem medianInterval?_eq_none_iff (h : timestamps.Pairwise (· < ·)) :
    medianInterval? timestamps = none ↔ timestamps.length ≤ 1 := by
  rw [medianInterval?_eq_none_iff_forwardSteps, forwardSteps_of_pairwise_lt h,
    Multiset.coe_eq_zero, ← List.length_eq_zero_iff, length_steps]
  omega

/-- **The median of an even spacing is its interval.** A single timestamp has no median. -/
theorem medianInterval?_of_even {interval : Int} (h : EvenlySpaced interval timestamps)
    (hinterval : 0 < interval) :
    medianInterval? timestamps = if 2 ≤ timestamps.length then some interval else none := by
  have horder := h.pairwise_lt hinterval
  split
  · rename_i hlength
    obtain ⟨m, hm⟩ := Option.ne_none_iff_exists'.mp fun hnone =>
      Nat.not_lt.mpr ((medianInterval?_eq_none_iff horder).mp hnone) hlength
    -- the median is between two of the steps, and they are alike
    obtain ⟨⟨low, hlow, hlowm⟩, high, hhigh, hmhigh⟩ := (isMiddle_forwardSteps hm).exists_le_ge
    rw [forwardSteps_of_pairwise_lt horder] at hlow hhigh
    rw [h.eq_of_mem_steps low hlow] at hlowm
    rw [h.eq_of_mem_steps high hhigh] at hmhigh
    rw [hm, Int.le_antisymm hmhigh hlowm]
  · rename_i hshort
    exact (medianInterval?_eq_none_iff horder).mpr (by omega)

/-- **Not more than half of the steps are longer than the median.** The timestamps are in order, so
that all steps are among those the median is of. -/
theorem two_mul_countP_steps_le (h : timestamps.Pairwise (· < ·))
    (hm : medianInterval? timestamps = some m) :
    2 * (steps timestamps).countP (fun d => decide (m < d)) ≤ timestamps.length - 1 := by
  have hhalf := (isMiddle_forwardSteps hm).two_mul_countP_gt_le
  rwa [forwardSteps_of_pairwise_lt h, Multiset.coe_countP, Multiset.coe_card, length_steps] at hhalf

end MarketReplay
