import MarketReplay.Proofs.Cleaning.Order

/-!
# Bars without their marks

Cleaning writes the quality of a bar and never reads one. Every step of it can therefore be done on
bars whose quality was taken off (`Bar.unmarked`), with the same outcome: the same bars are dropped
and kept (`ordered_map_unmarked`), they get the same marks (`marksOf_map_unmarked`), and with these
they are the same bars (`withMarks_map_unmarked`). **Hence bars that differ in quality alone come to
the same series** (`finished_map_unmarked`), and what a first pass wrote does not show in a second.
-/

set_option autoImplicit false

namespace MarketReplay

variable {α : Type}

/-- The bar before anything was found out about it. It is the representative of all bars that differ
from it in quality alone, and equations between bars up to quality are equations between these. -/
def Bar.unmarked (b : Bar α) : Bar α := { b with quality := .good }

theorem Bar.eq_of_unmarked_eq {b b' : Bar α} (h : b.unmarked = b'.unmarked) :
    b = { b' with quality := b.quality } := by
  obtain ⟨timestamp, opening, high, low, closing, volume, quoteVolume, tradeCount, quality⟩ := b
  simp only [Bar.unmarked, Bar.mk.injEq] at h ⊢
  simpa using h

theorem map_timestamp_unmarked (bars : List (Bar α)) :
    (bars.map Bar.unmarked).map Bar.timestamp = bars.map Bar.timestamp := by
  rw [List.map_map]
  rfl

/-! ## Order

Times and soundness do not involve the quality, so the order of the bars and the choice of those
that are kept commute with taking the marks off. -/

theorem chronological_iff_times {bars : List (Bar α)} :
    Chronological bars ↔ (bars.map Bar.timestamp).Pairwise (· < ·) := by
  rw [List.pairwise_map]
  rfl

theorem Chronological.of_times {bars bars' : List (Bar α)} (h : Chronological bars)
    (htimes : bars'.map Bar.timestamp = bars.map Bar.timestamp) : Chronological bars' := by
  rw [chronological_iff_times, htimes, ← chronological_iff_times]
  exact h

theorem lastAt?_map_unmarked (bars : List (Bar α)) (time : Int) :
    lastAt? (bars.map Bar.unmarked) time = (lastAt? bars time).map Bar.unmarked := by
  unfold lastAt?
  rw [List.filter_map, List.getLast?_map]
  rfl

variable [Scalar α]

theorem filter_isValid_map_unmarked (bars : List (Bar α)) :
    (bars.map Bar.unmarked).filter Bar.isValid = (bars.filter Bar.isValid).map Bar.unmarked := by
  rw [List.filter_map]
  rfl

theorem ordered_map_unmarked (bars : List (Bar α)) :
    ordered (bars.map Bar.unmarked) = (ordered bars).map Bar.unmarked := by
  refine (chronological_ordered _).ext
    ((chronological_ordered bars).of_times (map_timestamp_unmarked _)) ?_
  intro time
  rw [lastAt?_ordered, filter_isValid_map_unmarked, lastAt?_map_unmarked, lastAt?_map_unmarked,
    lastAt?_ordered]

/-! ## Marks

Nor do the marks involve it. Every lemma here has the same reason, that no function of a mark reads
the field, and holds by unfolding. -/

theorem length_marksAlong (settings : CleaningSettings α) (threshold : Option Int)
    (bars : List (Bar α)) (before : Option (Bar α)) (volumes : RollingWindow α) :
    (marksAlong settings threshold before volumes bars).length = bars.length := by
  induction bars generalizing before volumes with
  | nil => rfl
  | cons bar rest ih => simp only [marksAlong, List.length_cons, ih]

@[simp] theorem length_marksOf (settings : CleaningSettings α) (bars : List (Bar α)) :
    (marksOf settings bars).length = bars.length := length_marksAlong ..

theorem marksAlong_map_unmarked (settings : CleaningSettings α) (threshold : Option Int)
    (bars : List (Bar α)) (before : Option (Bar α)) (volumes : RollingWindow α) :
    marksAlong settings threshold (before.map Bar.unmarked) volumes (bars.map Bar.unmarked) =
      marksAlong settings threshold before volumes bars := by
  induction bars generalizing before volumes with
  | nil => rfl
  | cons bar rest ih =>
    have hrest := ih (some bar) (volumes.push bar.volume).1
    cases before with
    | none => exact congrArg (_ :: ·) hrest
    | some before => exact congrArg (_ :: ·) hrest

theorem marksOf_map_unmarked (settings : CleaningSettings α) (bars : List (Bar α)) :
    marksOf settings (bars.map Bar.unmarked) = marksOf settings bars := by
  unfold marksOf
  rw [map_timestamp_unmarked]
  exact marksAlong_map_unmarked settings _ bars none _

omit [Scalar α] in
theorem withMarks_map_unmarked (bars : List (Bar α)) (marks : List Marks) :
    withMarks (bars.map Bar.unmarked) marks = withMarks bars marks := by
  unfold withMarks
  rw [List.zipWith_map_left]
  rfl

omit [Scalar α] in
theorem map_unmarked_withMarks {bars : List (Bar α)} {marks : List Marks}
    (h : marks.length = bars.length) :
    (withMarks bars marks).map Bar.unmarked = bars.map Bar.unmarked := by
  unfold withMarks
  induction bars generalizing marks with
  | nil => rfl
  | cons bar rest ih =>
    cases marks with
    | nil => cases h
    | cons m marks =>
      rw [List.zipWith_cons_cons, List.map_cons, ih (Nat.succ.inj h)]
      rfl

/-! ## Cleaning

Cleaning as one function of the kept bars. With the report split off, the series is decided by
`ordered` alone, and the theorems about whole inputs become theorems about kept bars. -/

/-- The series that comes of the bars that are kept, or why there is none. It is the second half of
`clean`, without the report. -/
def finished (settings : CleaningSettings α) (kept : List (Bar α)) :
    Except (Fault α) (List (Bar α)) :=
  if kept.length < Nat.max settings.minBars 1 then
    .error (.insufficientData (Nat.max settings.minBars 1) kept.length)
  else .ok (withMarks kept (marksOf settings kept))

theorem map_fst_clean (settings : CleaningSettings α) (bars : List (Bar α)) :
    (clean settings bars).map Prod.fst = finished settings (ordered bars) := by
  unfold clean finished
  simp only []
  split <;> rfl

/-- **Kept bars that differ in quality alone come to the same series.** Marks are worked out from
prices, volumes and times, and replace whatever was there. -/
theorem finished_map_unmarked (settings : CleaningSettings α) (kept : List (Bar α)) :
    finished settings (kept.map Bar.unmarked) = finished settings kept := by
  unfold finished
  rw [List.length_map, marksOf_map_unmarked, withMarks_map_unmarked]

/-- A series and the report on it, when there is one. Every field of the report is given in terms of
the input, the duplicates as a difference, so that later proofs need neither `superseded` nor the
sort. -/
theorem clean_eq_ok_iff {settings : CleaningSettings α} {bars series : List (Bar α)}
    {report : CleaningReport} :
    clean settings bars = .ok (series, report) ↔
      finished settings (ordered bars) = .ok series ∧
        report =
          { inputBars := bars.length
            outputBars := (ordered bars).length
            duplicates := bars.countP Bar.isValid - (ordered bars).length
            invalidRange := bars.countP fun b => b.defect? == some .range
            negativeVolume := bars.countP fun b => b.defect? == some .volume
            invalidPrice := bars.countP fun b => b.defect? == some .price
            gaps := (marksOf settings (ordered bars)).countP Marks.gap
            suspicious := (marksOf settings (ordered bars)).countP Marks.suspicious } := by
  -- what was superseded is what is sound and was not kept
  have hduplicates : superseded (byTime (bars.filter Bar.isValid)) =
      bars.countP Bar.isValid - (ordered bars).length := by
    have := superseded_add_length_ordered bars
    omega
  unfold clean finished
  simp only [hduplicates]
  split
  · simp
  · simp only [Except.ok.injEq, Prod.mk.injEq]
    exact and_congr_right fun _ => eq_comm

theorem map_unmarked_of_finished {settings : CleaningSettings α} {kept series : List (Bar α)}
    (h : finished settings kept = .ok series) :
    series.map Bar.unmarked = kept.map Bar.unmarked := by
  unfold finished at h
  split at h
  · cases h
  · cases h
    exact map_unmarked_withMarks (length_marksOf settings kept)

end MarketReplay
