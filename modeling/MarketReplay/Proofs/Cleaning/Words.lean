import MarketReplay.Cleaning.Marks
import MarketReplay.Proofs.Cleaning.Median

/-!
# Intervals in machine words

Timestamps are integers without bounds in the definitions, and words of 64 bits in a machine. A
difference of two words can leave their range, and so can the sum of two steps of which the median
takes the mean; what a machine then does depends on how the program was built, and nothing is
promised of it. What is promised is said here: as long as the numbers that are worked out fit
(`StepsFit`), **a machine finds the same gaps** (`exists_wordThreshold?_lt_iff`).

So the words are written out beside the numbers, operation by operation (`wordMiddle?`,
`wordMedian?`, `wordThreshold?`), and each is shown to be the number. Only the threshold itself may
come out otherwise: it is cut to the range of words, where a multiple of the median can be too
large. No step is longer than either of the two then, so that the gaps are the same all the same.
-/

set_option autoImplicit false

namespace MarketReplay

/-! ## The arithmetic of words

Sums and differences come in again at the other end of the range, quotients are cut off towards
zero, and a number that is rounded to a word is held within the range. -/

/-- The word that is nearest to a whole number. A threshold that is a product of doubles is turned
into a word like this, and no step forwards that is a word changes sides by it. -/
def nearestWord (n : Int) : Int := max (IntRange.signed 64).low (min n (IntRange.signed 64).high)

/-- The middle of a sorted list, by the addition and the division of words. The addition is where a
machine can differ: the sum of two steps may have more than 64 bits when the steps have not. -/
def wordMiddle? (sorted : List Int) : Option Int :=
  let mid := sorted.length / 2
  if sorted.length % 2 = 0 then
    match sorted[mid - 1]?, sorted[mid]? with
    | some low, some high => some ((inWord (low + high)).tdiv 2)
    | _, _ => none
  else sorted[mid]?

/-- The median of the forward steps, where each step is a difference of words. A step that has left
the range comes in at the other end and may change its direction, so that it is dropped or counted
wrongly; the hypotheses below exclude it. -/
def wordMedian? (timestamps : List Int) : Option Int :=
  wordMiddle? ((((steps timestamps).map inWord).filter fun d => decide (0 < d)).mergeSort
    fun a b => decide (a ≤ b))

/-- The longest interval that is no gap, as a word. A multiple that is too large for a word becomes
the largest one, which no step is longer than. -/
def wordThreshold? {α : Type} [Scalar α] (settings : CleaningSettings α) (timestamps : List Int) :
    Option Int :=
  match settings.maxGap with
  | some gap => some gap
  | none => (wordMedian? timestamps).map fun median =>
    nearestWord (Scalar.floorToInt (Scalar.ofInt median * settings.gapTolerance))

/-! ## Numbers that fit

The conditions under which a machine is right. They speak of the timestamps of one series and of the
settings, and can be decided for both. -/

/-- The sum of the two numbers in the middle of a sorted list is a word. A list of odd length has no
such two, and nothing is asked of it. -/
def MiddleFits (sorted : List Int) : Prop :=
  sorted.length % 2 = 0 → ∀ low high, sorted[sorted.length / 2 - 1]? = some low →
    sorted[sorted.length / 2]? = some high → low + high ∈ IntRange.signed 64

/-- What is worked out to find the gaps of a series are words: each step, and where no threshold is
set and the median has to be found, the sum of the two steps in the middle. -/
structure StepsFit {α : Type} (settings : CleaningSettings α) (timestamps : List Int) : Prop where
  step_mem : ∀ d ∈ steps timestamps, d ∈ IntRange.signed 64
  middle_mem : settings.maxGap = none → MiddleFits (forwardSteps timestamps).sort

variable {α : Type} {settings : CleaningSettings α} {timestamps sorted : List Int} {d t : Int}

theorem sub_mem_steps {j : Nat} {before after : Int} (hbefore : timestamps[j]? = some before)
    (hafter : timestamps[j + 1]? = some after) : after - before ∈ steps timestamps := by
  have hchain : timestamps.IsChain fun a b => b - a ∈ steps timestamps :=
    forall_mem_steps_iff.mp fun d hd => hd
  obtain ⟨hj, rfl⟩ := List.getElem?_eq_some_iff.mp hafter
  obtain ⟨_, rfl⟩ := List.getElem?_eq_some_iff.mp hbefore
  exact List.isChain_iff_getElem.mp hchain j hj

/-- **The middle in words is the middle.** Positive numbers have a positive sum, so that it makes no
difference which way a quotient is rounded. -/
theorem wordMiddle?_eq (hfits : MiddleFits sorted) (hpos : ∀ d ∈ sorted, 0 < d) :
    wordMiddle? sorted = middle? sorted := by
  unfold wordMiddle? middle?
  dsimp only
  split
  · rename_i heven
    cases hlow : sorted[sorted.length / 2 - 1]? with
    | none => rfl
    | some low =>
      cases hhigh : sorted[sorted.length / 2]? with
      | none => rfl
      | some high =>
        have hlowPos := hpos low (List.mem_of_getElem? hlow)
        have hhighPos := hpos high (List.mem_of_getElem? hhigh)
        -- of a sum above zero both divisions by two give the same
        have hsum : 0 ≤ low + high := by omega
        dsimp only
        rw [inWord_of_mem (hfits heven low high hlow hhigh), Int.tdiv_eq_ediv_of_nonneg hsum]
  · rfl

theorem wordMedian?_eq (hsteps : ∀ d ∈ steps timestamps, d ∈ IntRange.signed 64)
    (hmiddle : MiddleFits (forwardSteps timestamps).sort) :
    wordMedian? timestamps = medianInterval? timestamps := by
  have hwords : (steps timestamps).map inWord = steps timestamps :=
    (List.map_congr_left fun d hd => inWord_of_mem (hsteps d hd)).trans (List.map_id _)
  have hsorted : ((steps timestamps).filter fun d => decide (0 < d)).mergeSort
      (fun a b => decide (a ≤ b)) = (forwardSteps timestamps).sort := by
    rw [forwardSteps_eq_filter, Multiset.filter_coe, Multiset.coe_sort]
  rw [wordMedian?, hwords, hsorted, medianInterval?_eq_middle?_sort]
  exact wordMiddle?_eq hmiddle fun d hd => pos_of_mem_forwardSteps ((Multiset.mem_sort _).mp hd)

/-- A word that leads forwards is above the nearest word of a number exactly if it is above the
number. -/
theorem nearestWord_lt_iff (hd : d ∈ IntRange.signed 64) (hpos : 0 < d) :
    nearestWord t < d ↔ t < d := by
  have hlow : (IntRange.signed 64).low < 0 := by decide
  have hhigh : d ≤ (IntRange.signed 64).high := hd.2
  unfold nearestWord
  omega

/-- **A machine finds the same gaps.** The step is compared with a threshold that need not be the
same, but lies on the same side of every step. -/
theorem exists_wordThreshold?_lt_iff [Scalar α] (hfits : StepsFit settings timestamps)
    (horder : timestamps.Pairwise (· < ·)) (hd : d ∈ steps timestamps) :
    (∃ t, wordThreshold? settings timestamps = some t ∧ t < inWord d) ↔
      ∃ t, gapThreshold? settings timestamps = some t ∧ t < d := by
  have hword : d ∈ IntRange.signed 64 := hfits.step_mem d hd
  rw [inWord_of_mem hword]
  unfold wordThreshold? gapThreshold?
  cases hgap : settings.maxGap with
  | some gap => exact Iff.rfl
  | none =>
    have hforward : 0 < d := by
      have hmem : d ∈ forwardSteps timestamps := by
        rw [forwardSteps_of_pairwise_lt horder]
        exact hd
      exact pos_of_mem_forwardSteps hmem
    simp only [wordMedian?_eq hfits.step_mem (hfits.middle_mem hgap), Option.map_eq_some_iff,
      exists_exists_and_eq_and, nearestWord_lt_iff hword hforward]

end MarketReplay
