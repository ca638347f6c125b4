import Mathlib.Data.Rat.Floor
import MarketReplay.Proofs.Cleaning.Content
import MarketReplay.Proofs.Cleaning.Median
import MarketReplay.Proofs.Cleaning.Places

/-!
# Series that cleaning leaves alone

**Sound bars in order, good so far and without a mark, come out of cleaning as they went in**
(`clean_untouched`), and the report counts them and nothing else.

Over the rationals a series has no marks when no two neighbours make a gap or a jump, and its
volumes differ by less than the multiple that is a spike (`marksOf_clear`): the mean that a volume
is compared with is then at least the least of them.

The bound on the volumes is one for the whole series and does not mention windows. This is coarser
than the rule, and what a made-up series can be shown to keep.
-/

set_option autoImplicit false

namespace MarketReplay

section

variable {α : Type} [Scalar α] {settings : CleaningSettings α} {bars : List (Bar α)}

omit [Scalar α] in
theorem withMarks_clear (bars : List (Bar α)) :
    withMarks bars (List.replicate bars.length ⟨false, false⟩) = bars.map Bar.unmarked := by
  unfold withMarks
  induction bars with
  | nil => rfl
  | cons bar rest ih =>
    rw [List.length_cons, List.replicate_succ, List.zipWith_cons_cons, ih]
    rfl

/-- The report on `n` bars of which there is nothing to say. Input and output are the same number
then. -/
def CleaningReport.plain (n : Nat) : CleaningReport where
  inputBars := n
  outputBars := n
  duplicates := 0
  invalidRange := 0
  negativeVolume := 0
  invalidPrice := 0
  gaps := 0
  suspicious := 0

/-- **A series without faults or marks is its own cleaning.** The qualities have to be good to begin
with, since they are written over. -/
theorem clean_untouched (hsound : ∀ b ∈ bars, b.Sound) (hgood : ∀ b ∈ bars, b.quality = .good)
    (horder : Chronological bars)
    (hmarks : marksOf settings bars = List.replicate bars.length ⟨false, false⟩)
    (henough : Nat.max settings.minBars 1 ≤ bars.length) :
    clean settings bars = .ok (bars, .plain bars.length) := by
  have hunmarked : bars.map Bar.unmarked = bars := by
    conv_rhs => rw [← List.map_id bars]
    refine List.map_congr_left ?_
    intro b hb
    rw [Bar.unmarked, ← hgood b hb, id]
  rw [clean_of_sound hsound horder henough, hmarks, withMarks_clear, hunmarked]
  simp [CleaningReport.plain, List.countP_replicate]

end

section

variable {settings : CleaningSettings ℚ} {bars : List (Bar ℚ)} {low : ℚ}

/-- The interval of an even spacing is no gap when gaps are told by the median. The median of equal
steps is the step, and a multiple of at least one is not below it, also when it is rounded down. -/
theorem le_gapThreshold?_of_even {times : List Int} {interval t : Int}
    (h : EvenlySpaced interval times) (hinterval : 0 < interval) (hunset : settings.maxGap = none)
    (htolerance : 1 ≤ settings.gapTolerance) (ht : gapThreshold? settings times = some t) :
    interval ≤ t := by
  have hinferred : gapThreshold? settings times = (medianInterval? times).map fun median =>
      Scalar.floorToInt (Scalar.ofInt median * settings.gapTolerance) := by
    unfold gapThreshold?
    rw [hunset]
  rw [hinferred, medianInterval?_of_even h hinterval, Option.map_eq_some_iff] at ht
  obtain ⟨median, hmedian, rfl⟩ := ht
  split at hmedian
  · cases hmedian
    have hnonneg : (0 : ℚ) ≤ interval := by exact_mod_cast hinterval.le
    exact Rat.le_floor_iff.mpr (le_mul_of_one_le_right hnonneg htolerance)
  · cases hmedian

/-- **A calm series has no marks.** Each mark is looked at by its place: the first bar has none, and
for any other the three conditions rule out a gap, a jump and a spike in turn. -/
theorem marksOf_clear
    (hgap : ∀ t, gapThreshold? settings (bars.map Bar.timestamp) = some t →
      bars.IsChain fun a b => b.timestamp - a.timestamp ≤ t)
    (hjump : bars.IsChain fun a b => jumps settings a b = false)
    (hmultiple : 0 ≤ settings.volumeSpike)
    (hvolume : ∀ b ∈ bars, low ≤ b.volume ∧ b.volume ≤ low * settings.volumeSpike) :
    marksOf settings bars = List.replicate bars.length ⟨false, false⟩ := by
  refine List.eq_replicate_iff.mpr ⟨length_marksOf settings bars, ?_⟩
  intro m hm
  obtain ⟨i, hmark⟩ := List.mem_iff_getElem?.mp hm
  have hi : i < bars.length := by
    rw [← length_marksOf settings bars]
    exact (List.getElem?_eq_some_iff.mp hmark).1
  cases i with
  -- the first bar is compared with nothing
  | zero =>
    rw [head?_marksOf (List.ne_nil_of_length_pos hi)] at hmark
    exact (Option.some.inj hmark).symm
  | succ i =>
    have hbefore : bars[i]? = some bars[i] := List.getElem?_eq_getElem _
    have hbar : bars[i + 1]? = some bars[i + 1] := List.getElem?_eq_getElem hi
    rw [getElem?_marksOf hbefore hbar, Option.some.injEq] at hmark
    have htrails := trails_volumesBefore settings bars (i + 1)
    have hlow : ∀ v ∈ (bars.take (i + 1)).map Bar.volume, low ≤ v := by
      intro v hv
      obtain ⟨b, hb, rfl⟩ := List.mem_map.mp hv
      exact (hvolume b (List.mem_of_mem_take hb)).1
    have hspike := spikes_eq_false htrails hlow hmultiple (hvolume _ (List.getElem_mem hi)).2
    have hstep := List.isChain_iff_getElem.mp hjump i hi
    rw [← hmark]
    unfold marksAfter
    rw [hspike, hstep]
    cases hthreshold : gapThreshold? settings (bars.map Bar.timestamp) with
    | none => rfl
    | some t =>
      have hnear := List.isChain_iff_getElem.mp (hgap t hthreshold) i hi
      have hnot := decide_eq_false (Int.not_lt.mpr hnear)
      simp only [hnot, Bool.or_false]

end

end MarketReplay
