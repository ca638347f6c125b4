import MarketReplay.Proofs.Cleaning.Content

/-!
# Cleaning bit by bit

A series that was cleaned can take the place of the raw bars it came from: **more bars may be added
to it, before it or behind it, and the whole cleaned again** (`clean_incremental`). This comes down
to one equation on the bars that are kept, taken without their marks (`kept_in_front`,
`kept_behind`): there a cleaned series is the kept bars of its input, and these may be put in order
before or after others join them.

In particular a second pass finds nothing to do (`clean_series`). A cleaned series is in order and
its bars are sound, so that none is dropped for any cause; and the second pass marks what the first
marked, because the marks of the first are not read.
-/

set_option autoImplicit false

namespace MarketReplay

variable {α : Type} [Scalar α] {settings : CleaningSettings α} {raw series : List (Bar α)}

/-! ## Which bars are kept

A cleaned series put in the place of its input, on either side of other bars. The marks are taken
off first, the kept bars are exchanged for the input, and the marks come back last. -/

/-- A cleaned series in front of other bars keeps what its input would. The calculation goes to bars
without marks and back; in between it is that bars may be put in order before others join them. -/
theorem kept_in_front (h : finished settings (ordered raw) = .ok series) (more : List (Bar α)) :
    (ordered (series ++ more)).map Bar.unmarked = (ordered (raw ++ more)).map Bar.unmarked := by
  calc (ordered (series ++ more)).map Bar.unmarked
      = ordered (series.map Bar.unmarked ++ more.map Bar.unmarked) := by
        rw [← ordered_map_unmarked, List.map_append]
    _ = ordered (ordered (raw.map Bar.unmarked) ++ more.map Bar.unmarked) := by
        rw [map_unmarked_of_finished h, ordered_map_unmarked]
    _ = ordered (raw.map Bar.unmarked ++ more.map Bar.unmarked) := ordered_append_left ..
    _ = (ordered (raw ++ more)).map Bar.unmarked := by
        rw [← List.map_append, ordered_map_unmarked]

theorem kept_behind (h : finished settings (ordered raw) = .ok series) (more : List (Bar α)) :
    (ordered (more ++ series)).map Bar.unmarked = (ordered (more ++ raw)).map Bar.unmarked := by
  calc (ordered (more ++ series)).map Bar.unmarked
      = ordered (more.map Bar.unmarked ++ series.map Bar.unmarked) := by
        rw [← ordered_map_unmarked, List.map_append]
    _ = ordered (more.map Bar.unmarked ++ ordered (raw.map Bar.unmarked)) := by
        rw [map_unmarked_of_finished h, ordered_map_unmarked]
    _ = ordered (more.map Bar.unmarked ++ raw.map Bar.unmarked) := ordered_append_right ..
    _ = (ordered (more ++ raw)).map Bar.unmarked := by
        rw [← List.map_append, ordered_map_unmarked]

theorem map_fst_clean_of_kept {bars bars' : List (Bar α)}
    (h : (ordered bars).map Bar.unmarked = (ordered bars').map Bar.unmarked) :
    (clean settings bars).map Prod.fst = (clean settings bars').map Prod.fst := by
  rw [map_fst_clean, map_fst_clean, ← finished_map_unmarked, h, finished_map_unmarked]

/-! ## The second pass

What a cleaned series looks like to cleaning: sound, in order, long enough, and marked as it will be
marked again. -/

theorem sound_of_mem (h : finished settings (ordered raw) = .ok series) :
    ∀ bar ∈ series, bar.Sound := by
  intro bar hbar
  obtain ⟨kept, hkept, heq⟩ := mem_of_finished h hbar
  obtain ⟨hsound, -⟩ := last_sound_of_mem_ordered hkept
  rw [heq]
  exact ⟨hsound.prices, hsound.low_le, hsound.le_high, hsound.volume_nonneg⟩

/-- A series gets the marks that it was made with. It has the bars it was made of but for the
qualities, and those are not read. -/
theorem marksOf_series (h : finished settings (ordered raw) = .ok series) :
    marksOf settings series = marksOf settings (ordered raw) := by
  rw [← marksOf_map_unmarked, map_unmarked_of_finished h, marksOf_map_unmarked]

theorem eq_withMarks_of_finished {kept : List (Bar α)} (h : finished settings kept = .ok series) :
    Nat.max settings.minBars 1 ≤ kept.length ∧
      withMarks kept (marksOf settings kept) = series := by
  unfold finished at h
  split at h
  · cases h
  · rename_i henough
    exact ⟨Nat.le_of_not_lt henough, Except.ok.inj h⟩

/-- **A second pass changes nothing, drops nothing and marks the same.** This is cleaning bit by bit
with no bars added. -/
theorem clean_series {report : CleaningReport} (h : clean settings raw = .ok (series, report)) :
    clean settings series =
      .ok (series,
        { inputBars := series.length
          outputBars := series.length
          duplicates := 0
          invalidRange := 0
          negativeVolume := 0
          invalidPrice := 0
          gaps := report.gaps
          suspicious := report.suspicious }) := by
  obtain ⟨hfinished, hreport⟩ := clean_eq_ok_iff.mp h
  have hunmarked := map_unmarked_of_finished hfinished
  have hlength : series.length = (ordered raw).length := by
    simpa using congrArg List.length hunmarked
  have hmarks := marksOf_series hfinished
  obtain ⟨henough, hseries⟩ := eq_withMarks_of_finished hfinished
  have horder : Chronological series :=
    (chronological_ordered raw).of_times (times_of_finished hfinished)
  -- the marks do not look at qualities, so that they come out the same on a marked series
  have hagain : withMarks series (marksOf settings series) = series := by
    rw [hmarks, ← withMarks_map_unmarked, hunmarked, withMarks_map_unmarked, hseries]
  rw [clean_of_sound (sound_of_mem hfinished) horder (hlength ▸ henough), hagain, hmarks, hreport]

/-! ## More bars

Both sides in one statement, with the fault included: if the whole has too few bars, it has too few
by the same numbers. -/

/-- **Cleaning may be done bit by bit.** A cleaned series stands for its input, in front of other
bars and behind them: what comes of the whole is the same, the qualities and a fault included.
Cleaned on its own it stays as it is, and the report on this has no bar dropped for any cause, and
as many gaps and suspicious bars as the first. -/
theorem clean_incremental (settings : CleaningSettings α) (first second : List (Bar α)) :
    (∀ series report, clean settings first = .ok (series, report) →
      (clean settings (series ++ second)).map Prod.fst =
          (clean settings (first ++ second)).map Prod.fst ∧
        ∃ again, clean settings series = .ok (series, again) ∧ again.dropped = 0 ∧
          again.duplicates = 0 ∧ again.invalidRange = 0 ∧ again.negativeVolume = 0 ∧
          again.invalidPrice = 0 ∧ again.gaps = report.gaps ∧
          again.suspicious = report.suspicious) ∧
    ∀ series report, clean settings second = .ok (series, report) →
      (clean settings (first ++ series)).map Prod.fst =
        (clean settings (first ++ second)).map Prod.fst := by
  constructor
  · intro series report h
    have hfinished := (clean_eq_ok_iff.mp h).1
    refine ⟨map_fst_clean_of_kept (kept_in_front hfinished second), ?_⟩
    -- the series alone is cleaned to itself, and nothing is dropped of it
    exact ⟨_, clean_series h, Nat.sub_self _, rfl, rfl, rfl, rfl, rfl, rfl⟩
  · intro series report h
    exact map_fst_clean_of_kept (kept_behind (clean_eq_ok_iff.mp h).1 first)

/-- Later bars for the sample: another one of a time that it has, and one of a new time. -/
def sampleMore : List (Bar Rat) := [.ofPrices 120 12 13 11 12 4, .ofPrices 180 12 13 11 12 4]

theorem marksOf_sampleKept :
    marksOf .usual sampleKept = [⟨false, false⟩, ⟨false, false⟩, ⟨true, true⟩] := by
  have hsteps : (steps (sampleKept.map Bar.timestamp)).filter (fun d => decide (0 < d)) =
      [60, 240] := by
    decide +kernel
  have hmedian : medianInterval? (sampleKept.map Bar.timestamp) = some 150 := by
    rw [medianInterval?, hsteps, List.mergeSort_of_pairwise (by decide)]
    rfl
  unfold marksOf gapThreshold?
  rw [hmedian]
  decide +kernel

/-- The sample series takes the place of the raw bars, and keeps its gap and its suspicious bar. -/
theorem clean_incremental_sample :
    ∃ series report, clean .usual sampleRaw = .ok (series, report) ∧ report.dropped = 3 ∧
      (clean .usual (series ++ sampleMore)).map Prod.fst =
        (clean .usual (sampleRaw ++ sampleMore)).map Prod.fst ∧
      (clean .usual (sampleMore ++ series)).map Prod.fst =
        (clean .usual (sampleMore ++ sampleRaw)).map Prod.fst ∧
      ∃ again, clean .usual series = .ok (series, again) ∧ again.dropped = 0 ∧ again.gaps = 1 ∧
        again.suspicious = 1 := by
  have hfinished : finished .usual (ordered sampleRaw) =
      .ok (withMarks (ordered sampleRaw) (marksOf .usual (ordered sampleRaw))) := by
    rw [ordered_sampleRaw]
    exact if_neg (by decide +kernel)
  have hclean := clean_eq_ok_iff.mpr ⟨hfinished, rfl⟩
  obtain ⟨hfront, again, hagain, hdropped, -, -, -, -, hgaps, hsuspicious⟩ :=
    (clean_incremental .usual sampleRaw sampleMore).1 _ _ hclean
  have hbehind := (clean_incremental .usual sampleMore sampleRaw).2 _ _ hclean
  simp only [ordered_sampleRaw, marksOf_sampleKept] at hgaps hsuspicious
  refine ⟨_, _, hclean, ?_, hfront, hbehind, again, hagain, hdropped, hgaps, hsuspicious⟩
  simp only [CleaningReport.dropped, ordered_sampleRaw]
  rfl

end MarketReplay
