import MarketReplay.Proofs.Cleaning.Incremental
import MarketReplay.Proofs.Cleaning.Places

/-!
# Marks and qualities

A bar has two marks and shows one quality. The mark of a gap always shows
(`Marks.quality_eq_gap_iff`), the other one where there is no gap, and so the qualities of a series
tell less than its marks. The report is made of the marks: **its gaps are the bars that show one**
(`countP_gap`), and **its suspicious bars are those that show it and some that show a gap**
(`countP_suspicious_le`, `suspicious_le_countP`).

Cleaning marks the bars before it writes the qualities. That the marks can be found again from the
finished series (`map_quality_of_clean`) is what allows theorems to speak of the output alone.
-/

set_option autoImplicit false

namespace MarketReplay

/-! ## One bar -/

namespace Marks

variable {m : Marks}

theorem quality_eq_gap_iff : m.quality = .gap ↔ m.gap = true := by
  obtain ⟨_ | _, _ | _⟩ := m <;> decide

theorem quality_eq_suspicious_iff :
    m.quality = .suspicious ↔ m.suspicious = true ∧ m.gap = false := by
  obtain ⟨_ | _, _ | _⟩ := m <;> decide

/-- A suspicious bar shows it, or it shows a gap. This is all that is left of the mark in the
output. -/
theorem quality_of_suspicious (h : m.suspicious = true) :
    m.quality = .gap ∨ m.quality = .suspicious := by
  rw [quality_eq_gap_iff, quality_eq_suspicious_iff]
  cases m.gap with
  | true => exact Or.inl rfl
  | false => exact Or.inr ⟨h, rfl⟩

end Marks

/-! ## A cleaned series -/

variable {α : Type}

theorem map_quality_withMarks {bars : List (Bar α)} {marks : List Marks}
    (h : marks.length = bars.length) :
    (withMarks bars marks).map Bar.quality = marks.map Marks.quality := by
  unfold withMarks
  induction bars generalizing marks with
  | nil =>
    rw [List.length_eq_zero_iff.mp h]
    rfl
  | cons bar rest ih =>
    cases marks with
    | nil => cases h
    | cons m marks => rw [List.zipWith_cons_cons, List.map_cons, List.map_cons, ih (Nat.succ.inj h)]

variable [Scalar α] {settings : CleaningSettings α} {raw series : List (Bar α)}
  {report : CleaningReport} {before bar : Bar α} {i : Nat}

/-- A cleaned series is in order, and there is a bar in it. -/
theorem chronological_of_clean (h : clean settings raw = .ok (series, report)) :
    Chronological series ∧ 1 ≤ series.length := by
  have hfinished := (clean_eq_ok_iff.mp h).1
  have htimes := times_of_finished hfinished
  have hlength : series.length = (ordered raw).length := by
    simpa using congrArg List.length htimes
  refine ⟨(chronological_ordered raw).of_times htimes, ?_⟩
  rw [hlength]
  exact (Nat.le_max_right ..).trans (eq_withMarks_of_finished hfinished).1

theorem map_quality_of_clean (h : clean settings raw = .ok (series, report)) :
    series.map Bar.quality = (marksOf settings series).map Marks.quality := by
  have hfinished := (clean_eq_ok_iff.mp h).1
  rw [marksOf_series hfinished, ← (eq_withMarks_of_finished hfinished).2]
  exact map_quality_withMarks (length_marksOf ..)

theorem quality_at (h : clean settings raw = .ok (series, report)) (hbar : series[i]? = some bar) :
    ∃ m, (marksOf settings series)[i]? = some m ∧ bar.quality = m.quality := by
  have hquality := congrArg (·[i]?) (map_quality_of_clean h)
  simp only [List.getElem?_map, hbar, Option.map_some] at hquality
  obtain ⟨m, hm, heq⟩ := Option.map_eq_some_iff.mp hquality.symm
  exact ⟨m, hm, heq.symm⟩

theorem quality_first (h : clean settings raw = .ok (series, report))
    (hbar : series[0]? = some bar) : bar.quality = .good := by
  obtain ⟨m, hm, hquality⟩ := quality_at h hbar
  have hne : series ≠ [] := by
    rintro rfl
    cases hbar
  rw [head?_marksOf hne, Option.some.injEq] at hm
  rw [hquality, ← hm]
  rfl

/-- The quality of any other bar comes from the bar before it and the volumes before it. Both are
taken from the series itself and not from the input. -/
theorem quality_after (h : clean settings raw = .ok (series, report))
    (hbefore : series[i]? = some before) (hbar : series[i + 1]? = some bar) :
    bar.quality = (marksAfter settings (gapThreshold? settings (series.map Bar.timestamp))
      (volumesBefore settings series (i + 1)) before bar).quality := by
  obtain ⟨m, hm, hquality⟩ := quality_at h hbar
  rw [getElem?_marksOf hbefore hbar, Option.some.injEq] at hm
  rw [hquality, ← hm]

/-- The counts of marks in the report. They are counts over the series that came out, because the
bars it was made of have the same marks. -/
theorem marks_of_report (h : clean settings raw = .ok (series, report)) :
    report.gaps = (marksOf settings series).countP Marks.gap ∧
      report.suspicious = (marksOf settings series).countP Marks.suspicious := by
  obtain ⟨hfinished, hreport⟩ := clean_eq_ok_iff.mp h
  rw [marksOf_series hfinished, hreport]
  exact ⟨rfl, rfl⟩

theorem countP_quality (h : clean settings raw = .ok (series, report)) (q : Quality) :
    series.countP (fun b => decide (b.quality = q)) =
      (marksOf settings series).countP fun m => decide (m.quality = q) := by
  have hcount := congrArg (List.countP fun q' => decide (q' = q)) (map_quality_of_clean h)
  rw [List.countP_map, List.countP_map] at hcount
  exact hcount

/-- **The gaps of the report are the bars that show a gap.** No other mark hides one, which is not
so for suspicious bars. -/
theorem countP_gap (h : clean settings raw = .ok (series, report)) :
    series.countP (fun b => decide (b.quality = .gap)) = report.gaps := by
  rw [countP_quality h, (marks_of_report h).1]
  refine List.countP_congr fun m _ => ?_
  rw [decide_eq_true_eq, Marks.quality_eq_gap_iff]

theorem countP_suspicious_le (h : clean settings raw = .ok (series, report)) :
    series.countP (fun b => decide (b.quality = .suspicious)) ≤ report.suspicious := by
  rw [countP_quality h, (marks_of_report h).2]
  refine List.countP_mono_left fun m _ hm => ?_
  exact (Marks.quality_eq_suspicious_iff.mp (of_decide_eq_true hm)).1

/-- A bar that is counted as suspicious shows it, or it shows a gap. The bars with both marks are at
most as many as the gaps. -/
theorem suspicious_le_countP (h : clean settings raw = .ok (series, report)) :
    report.suspicious ≤
      series.countP (fun b => decide (b.quality = .suspicious)) + report.gaps := by
  obtain ⟨hgaps, hsuspicious⟩ := marks_of_report h
  -- the suspicious bars are split by whether a gap hides them
  have hbehind : (marksOf settings series).countP (fun m => m.suspicious && m.gap) ≤
      (marksOf settings series).countP Marks.gap :=
    List.countP_mono_left fun m _ hm => (Bool.and_eq_true_iff.mp hm).2
  have hshown : (marksOf settings series).countP (fun m => m.suspicious && !m.gap) =
      (marksOf settings series).countP fun m => decide (m.quality = .suspicious) := by
    refine List.countP_congr fun m _ => ?_
    rw [decide_eq_true_eq, Marks.quality_eq_suspicious_iff, Bool.and_eq_true, Bool.not_eq_true']
  rw [countP_quality h, hsuspicious, hgaps,
    List.countP_eq_countP_filter_add _ Marks.suspicious Marks.gap, List.countP_filter,
    List.countP_filter, hshown]
  omega

/-- The kept bars with their marks: the last is suspicious and behind a gap, and shows the gap. -/
def sampleMarked : List (Bar Rat) :=
  withMarks sampleKept [⟨false, false⟩, ⟨false, false⟩, ⟨true, true⟩]

def sampleReport : CleaningReport where
  inputBars := 6
  outputBars := 3
  duplicates := 1
  invalidRange := 1
  negativeVolume := 1
  invalidPrice := 0
  gaps := 1
  suspicious := 1

theorem clean_sampleRaw : clean .usual sampleRaw = .ok (sampleMarked, sampleReport) := by
  refine clean_eq_ok_iff.mpr ⟨?_, ?_⟩
  · rw [ordered_sampleRaw, finished, marksOf_sampleKept]
    exact if_neg (by decide +kernel)
  · rw [ordered_sampleRaw, marksOf_sampleKept]
    decide +kernel

end MarketReplay
