import Mathlib.Data.Finset.Card
import MarketReplay.Proofs.Cleaning.Marks
import MarketReplay.Scalar.Exact

/-!
# What a cleaned series holds

The content of a cleaned series, in terms of the input alone. A bar is *sound* when its prices are
finite and above zero, its low and high enclose the other two, and its volume is not negative
(`Bar.Sound`); that is what the three rules of cleaning come to (`Bar.isValid_iff_sound`).

**A cleaned series has one bar for each time of a sound bar, in order: the last sound bar of that
time, with a quality of its own** (`clean_content`). Nothing else of the input matters, and there is
no series when the times are too few. To be in order is what a run asks of its bars, so that no
cleaned series is refused for it.
-/

set_option autoImplicit false

namespace MarketReplay

variable {α : Type} [Scalar α]

/-! ## Sound bars

What a bar has to be is said here as a reader would say it, without the order in which the rules are
looked at. That the program's three tests come to this is an equivalence, so nothing is lost. -/

/-- A bar that can be. Comparisons with a `NaN` fail, so that a bar with one is not sound. The
fields are the rules of cleaning as propositions, which makes them usable one by one. -/
structure Bar.Sound (b : Bar α) : Prop where
  prices : ∀ price ∈ [b.opening, b.high, b.low, b.closing],
    Scalar.isFinite price = true ∧ 0 < price
  low_le : b.low ≤ Scalar.min b.opening b.closing
  le_high : Scalar.max b.opening b.closing ≤ b.high
  volume_nonneg : 0 ≤ b.volume

theorem Bar.hasPositivePrices_iff {b : Bar α} :
    b.hasPositivePrices = true ↔ ∀ price ∈ [b.opening, b.high, b.low, b.closing],
      Scalar.isFinite price = true ∧ 0 < price := by
  unfold Bar.hasPositivePrices
  simp only [List.all_eq_true, Bool.and_eq_true, decide_eq_true_eq]

theorem Bar.hasValidRange_iff {b : Bar α} :
    b.hasValidRange = true ↔
      b.low ≤ Scalar.min b.opening b.closing ∧ Scalar.max b.opening b.closing ≤ b.high := by
  unfold Bar.hasValidRange
  simp only [Bool.and_eq_true, decide_eq_true_eq]

theorem Bar.isValid_iff_sound {b : Bar α} : b.isValid = true ↔ b.Sound := by
  unfold Bar.isValid Bar.defect?
  constructor
  · intro h
    -- the rules are looked at in their order, and each that is broken ends it
    by_cases hprices : b.hasPositivePrices = true
    · by_cases hrange : b.hasValidRange = true
      · by_cases hvolume : 0 ≤ b.volume
        · obtain ⟨hlow, hhigh⟩ := Bar.hasValidRange_iff.mp hrange
          exact ⟨Bar.hasPositivePrices_iff.mp hprices, hlow, hhigh, hvolume⟩
        · simp [hprices, hrange, hvolume] at h
      · simp [hprices, hrange] at h
    · simp [hprices] at h
  · intro h
    have hprices := Bar.hasPositivePrices_iff.mpr h.prices
    have hrange := Bar.hasValidRange_iff.mpr ⟨h.low_le, h.le_high⟩
    simp [hprices, hrange, h.volume_nonneg]

instance (b : Bar α) : Decidable b.Sound := decidable_of_iff _ Bar.isValid_iff_sound

theorem countP_defect_eq_zero {bars : List (Bar α)} (hsound : ∀ b ∈ bars, b.Sound)
    (defect : Defect) : bars.countP (fun b => b.defect? == some defect) = 0 := by
  refine List.countP_eq_zero.mpr ?_
  intro b hb
  have hnone : b.defect? = none :=
    Option.isNone_iff_eq_none.mp (Bar.isValid_iff_sound.mpr (hsound b hb))
  rw [hnone]
  simp

/-- The times of the sound bars. Their number is how long the series gets, and so it is what a
demand for bars is compared with. -/
def soundTimes (bars : List (Bar α)) : Finset Int :=
  ((bars.filter fun b => decide b.Sound).map Bar.timestamp).toFinset

theorem filter_sound (bars : List (Bar α)) :
    (bars.filter fun b => decide b.Sound) = bars.filter Bar.isValid := by
  refine List.filter_congr ?_
  intro b _
  rw [Bool.eq_iff_iff, decide_eq_true_eq, Bar.isValid_iff_sound]

/-! ## Times -/

theorem mem_times_ordered {bars : List (Bar α)} {time : Int} :
    time ∈ (ordered bars).map Bar.timestamp ↔ time ∈ soundTimes bars := by
  have hsome (l : List (Bar α)) : time ∈ l.map Bar.timestamp ↔ lastAt? l time ≠ none := by
    rw [Ne, lastAt?_eq_none_iff]
    simp
  rw [hsome, lastAt?_ordered, ← hsome, soundTimes, List.mem_toFinset, filter_sound]

/-- One bar is kept for each time of a sound bar. The times are a set, so this is how many there are
without repetition. -/
theorem length_ordered (bars : List (Bar α)) : (ordered bars).length = (soundTimes bars).card := by
  have hnodup : ((ordered bars).map Bar.timestamp).Nodup :=
    (chronological_iff_times.mp (chronological_ordered bars)).imp fun hlt => Int.ne_of_lt hlt
  have htimes : ((ordered bars).map Bar.timestamp).toFinset = soundTimes bars := by
    ext time
    rw [List.mem_toFinset, mem_times_ordered]
  rw [← htimes, List.toFinset_card_of_nodup hnodup, List.length_map]

theorem last_sound_of_mem_ordered {bars : List (Bar α)} {bar : Bar α} (h : bar ∈ ordered bars) :
    bar.Sound ∧ ∃ before after, bars = before ++ bar :: after ∧
      ∀ b ∈ after, b.Sound → b.timestamp ≠ bar.timestamp := by
  obtain ⟨hvalid, -, before, after, hsplit, hafter⟩ :=
    lastAt?_filter_eq_some_iff.mp (mem_ordered.mp h)
  refine ⟨Bar.isValid_iff_sound.mp hvalid, before, after, hsplit, ?_⟩
  intro b hb hsound
  exact hafter b hb (Bar.isValid_iff_sound.mpr hsound)

/-! ## The series -/

theorem times_of_finished {settings : CleaningSettings α} {kept series : List (Bar α)}
    (h : finished settings kept = .ok series) :
    series.map Bar.timestamp = kept.map Bar.timestamp := by
  rw [← map_timestamp_unmarked, map_unmarked_of_finished h, map_timestamp_unmarked]

/-- A bar of a series is a bar it is made of, but for the quality. Nothing else of a bar is ever
written. -/
theorem mem_of_finished {settings : CleaningSettings α} {kept series : List (Bar α)}
    (h : finished settings kept = .ok series) {bar : Bar α} (hbar : bar ∈ series) :
    ∃ b ∈ kept, bar = { b with quality := bar.quality } := by
  have hmem : bar.unmarked ∈ kept.map Bar.unmarked := by
    rw [← map_unmarked_of_finished h]
    exact List.mem_map_of_mem hbar
  obtain ⟨b, hb, heq⟩ := List.mem_map.mp hmem
  exact ⟨b, hb, Bar.eq_of_unmarked_eq heq.symm⟩

/-- Sound bars in order are all kept. They are their own answer to what comes last at each time. -/
theorem ordered_eq_self {bars : List (Bar α)} (hsound : ∀ b ∈ bars, b.Sound)
    (horder : Chronological bars) : ordered bars = bars := by
  have hvalid : bars.filter Bar.isValid = bars :=
    List.filter_eq_self.mpr fun b hb => Bar.isValid_iff_sound.mpr (hsound b hb)
  refine (chronological_ordered bars).ext horder ?_
  intro time
  rw [lastAt?_ordered, hvalid]

/-- Of sound bars in order nothing is dropped. They get their marks, and the report counts these.
This is cleaning with everything but the marks gone, and second passes and made-up series go through
here. -/
theorem clean_of_sound {settings : CleaningSettings α} {bars : List (Bar α)}
    (hsound : ∀ b ∈ bars, b.Sound) (horder : Chronological bars)
    (henough : Nat.max settings.minBars 1 ≤ bars.length) :
    clean settings bars =
      .ok (withMarks bars (marksOf settings bars),
        { inputBars := bars.length
          outputBars := bars.length
          duplicates := 0
          invalidRange := 0
          negativeVolume := 0
          invalidPrice := 0
          gaps := (marksOf settings bars).countP Marks.gap
          suspicious := (marksOf settings bars).countP Marks.suspicious }) := by
  have hkept := ordered_eq_self hsound horder
  have hfinished : finished settings (ordered bars) =
      .ok (withMarks bars (marksOf settings bars)) := by
    rw [hkept, finished, if_neg (Nat.not_lt.mpr henough)]
  -- every bar is kept, so that none was superseded
  have hduplicates : bars.countP Bar.isValid - bars.length = 0 :=
    Nat.sub_eq_zero_of_le List.countP_le_length
  refine clean_eq_ok_iff.mpr ⟨hfinished, ?_⟩
  rw [hkept, hduplicates]
  simp only [countP_defect_eq_zero hsound]

/-- **A cleaned series holds the last sound bar of each time, in order.** With fewer times than are
asked for there is no series, and the fault says how many there are. Otherwise there is one; its
times are those of the sound bars, each of its bars is the last sound bar of its time but for the
quality, and the order of time that a run checks is kept. -/
theorem clean_content (settings : CleaningSettings α) (bars : List (Bar α)) :
    ((soundTimes bars).card < Nat.max settings.minBars 1 →
      clean settings bars =
        .error (.insufficientData (Nat.max settings.minBars 1) (soundTimes bars).card)) ∧
    (Nat.max settings.minBars 1 ≤ (soundTimes bars).card →
      ∃ series report, clean settings bars = .ok (series, report) ∧
        Chronological series ∧
        (∀ time, time ∈ series.map Bar.timestamp ↔ time ∈ soundTimes bars) ∧
        (∀ bar ∈ series, ∃ before last after, bars = before ++ last :: after ∧ last.Sound ∧
          (∀ b ∈ after, b.Sound → b.timestamp ≠ last.timestamp) ∧
          bar = { last with quality := bar.quality }) ∧
        outOfOrder? 0 series = none) := by
  constructor
  · intro hfew
    rw [← length_ordered] at hfew ⊢
    unfold clean
    simp only []
    exact if_pos hfew
  · intro henough
    have hfinished : finished settings (ordered bars) =
        .ok (withMarks (ordered bars) (marksOf settings (ordered bars))) := by
      rw [← length_ordered] at henough
      exact if_neg (Nat.not_lt.mpr henough)
    have htimes := times_of_finished hfinished
    -- the marks change qualities and no times
    have hseries := (chronological_ordered bars).of_times htimes
    refine ⟨_, _, clean_eq_ok_iff.mpr ⟨hfinished, rfl⟩, hseries, ?_, ?_, ?_⟩
    · intro time
      rw [htimes, mem_times_ordered]
    · intro bar hbar
      obtain ⟨last, hlast, heq⟩ := mem_of_finished hfinished hbar
      obtain ⟨hsound, before, after, hsplit, hafter⟩ := last_sound_of_mem_ordered hlast
      exact ⟨before, last, after, hsplit, hsound, hafter, heq⟩
    · exact (outOfOrder?_eq_none_iff _ 0).mpr hseries

/-- Raw bars out of order: three of one time, the last of them with a range that cannot be, and one
of no volume that can be. -/
def sampleRaw : List (Bar Rat) :=
  [.ofPrices 120 10 11 9 10 4, .ofPrices 60 10 11 9 10 5, .ofPrices 60 11 12 10 11 6,
    .ofPrices 60 11 5 10 11 7, .ofPrices 0 10 11 9 10 (-1), .ofPrices 360 20 21 19 20 4]

def sampleKept : List (Bar Rat) :=
  [.ofPrices 60 11 12 10 11 6, .ofPrices 120 10 11 9 10 4, .ofPrices 360 20 21 19 20 4]

theorem ordered_sampleRaw : ordered sampleRaw = sampleKept := by
  have hvalid : sampleRaw.filter Bar.isValid =
      [.ofPrices 120 10 11 9 10 4, .ofPrices 60 10 11 9 10 5, .ofPrices 60 11 12 10 11 6,
        .ofPrices 360 20 21 19 20 4] := by
    decide +kernel
  have hsorted : byTime (sampleRaw.filter Bar.isValid) =
      [.ofPrices 60 10 11 9 10 5, .ofPrices 60 11 12 10 11 6, .ofPrices 120 10 11 9 10 4,
        .ofPrices 360 20 21 19 20 4] := by
    rw [hvalid]
    simp [byTime, List.mergeSort, Bar.ofPrices, List.MergeSort.Internal.splitInTwo]
  rw [ordered, hsorted]
  rfl

theorem card_soundTimes_sampleRaw : (soundTimes sampleRaw).card = 3 := by
  have htimes : soundTimes sampleRaw = {60, 120, 360} := by decide +kernel
  rw [htimes]
  rfl

/-- The raw bars are too few when four are asked for. Otherwise three are left, and of the three of
one time it is the second. -/
theorem clean_content_sample :
    clean { CleaningSettings.usual with minBars := 4 } sampleRaw = .error (.insufficientData 4 3) ∧
      ∃ series report, clean .usual sampleRaw = .ok (series, report) ∧ Chronological series ∧
        (60 ∈ series.map Bar.timestamp ∧ 0 ∉ series.map Bar.timestamp) ∧
        series.map Bar.closing = [11, 10, 20] := by
  constructor
  · have hfew := (clean_content { CleaningSettings.usual with minBars := 4 } sampleRaw).1
    rw [card_soundTimes_sampleRaw] at hfew
    exact hfew (by decide)
  · have henough := (clean_content .usual sampleRaw).2
    rw [card_soundTimes_sampleRaw] at henough
    obtain ⟨series, report, hclean, horder, htimes, -, -⟩ := henough (by decide +kernel)
    refine ⟨series, report, hclean, horder, ⟨?_, ?_⟩, ?_⟩
    · exact (htimes 60).mpr (by decide +kernel)
    · exact fun hmem => absurd ((htimes 0).mp hmem) (by decide +kernel)
    · have hseries := map_unmarked_of_finished (clean_eq_ok_iff.mp hclean).1
      rw [ordered_sampleRaw] at hseries
      have hclosing := congrArg (List.map Bar.closing) hseries
      rw [List.map_map, List.map_map] at hclosing
      exact hclosing

end MarketReplay
