import MarketReplay.Proofs.Cleaning.Qualities

/-!
# The report adds up

Cleaning passes over the bars three times and counts in each pass: a defect for each bar that cannot
be, a duplicate for each bar that a later one of its time supersedes, and the marks of what is left.
**No bar is lost between the counts** (`report_accounts`). A bar that is not sound has exactly one
defect, the first rule that it breaks (`Bar.existsUnique_breaks`); a sound one is kept or
superseded, and one is kept for each time; and of the kept bars the report has the gaps and the
suspicious ones.
-/

set_option autoImplicit false

namespace MarketReplay

variable {α : Type} [Scalar α]

/-! ## Defects

A bar may break several rules and is counted once. So the counts are disjoint, and this is what lets
them add up to the bars that are not sound. -/

/-- The bar breaks a rule, and keeps those before it. This is what it means to be counted under a
rule. -/
def Bar.Breaks (b : Bar α) : Defect → Prop
  | .price => ¬b.hasPositivePrices = true
  | .range => b.hasPositivePrices = true ∧ ¬b.hasValidRange = true
  | .volume => b.hasPositivePrices = true ∧ b.hasValidRange = true ∧ ¬0 ≤ b.volume

theorem Bar.defect?_eq_some_iff {b : Bar α} {d : Defect} : b.defect? = some d ↔ b.Breaks d := by
  unfold Bar.defect?
  by_cases hprices : b.hasPositivePrices = true
  · by_cases hrange : b.hasValidRange = true
    · by_cases hvolume : 0 ≤ b.volume <;> cases d <;>
        simp [Bar.Breaks, hprices, hrange, hvolume]
    · cases d <;> simp [Bar.Breaks, hprices, hrange]
  · cases d <;> simp [Bar.Breaks, hprices]

instance (b : Bar α) (d : Defect) : Decidable (b.Breaks d) :=
  decidable_of_iff _ Bar.defect?_eq_some_iff

/-- A bar that is not sound breaks one rule first, and a sound bar none. -/
theorem Bar.existsUnique_breaks {b : Bar α} : (∃! d, b.Breaks d) ↔ ¬b.Sound := by
  simp only [← Bar.defect?_eq_some_iff]
  rw [← Bar.isValid_iff_sound, Bar.isValid]
  cases h : b.defect? with
  | none => simp
  | some d => simp [ExistsUnique]

theorem countP_defect (bars : List (Bar α)) (d : Defect) :
    bars.countP (fun b => b.defect? == some d) = bars.countP fun b => decide (b.Breaks d) := by
  refine List.countP_congr fun b _ => ?_
  rw [beq_iff_eq, decide_eq_true_eq, Bar.defect?_eq_some_iff]

/-- Every bar is valid or has one of the three defects, and never two. The induction is along the
bars, and each adds one to exactly one of the four counts. -/
theorem countP_isValid_add_defects (bars : List (Bar α)) :
    bars.countP Bar.isValid + bars.countP (fun b => b.defect? == some .price) +
        bars.countP (fun b => b.defect? == some .range) +
        bars.countP (fun b => b.defect? == some .volume) =
      bars.length := by
  induction bars with
  | nil => rfl
  | cons b rest ih =>
    have hcases : b.defect? = none ∨ b.defect? = some .price ∨ b.defect? = some .range ∨
        b.defect? = some .volume := by
      rcases b.defect? with _ | _ | _ | _ <;> simp
    rcases hcases with hdefect | hdefect | hdefect | hdefect <;>
      simp [Bar.isValid, hdefect] at ih ⊢ <;> omega

/-! ## The whole report

The identities of the report. The first ones are about numbers of bars, the last about marks, and
the two meet nowhere: marking drops nothing. -/

variable {settings : CleaningSettings α} {raw series : List (Bar α)} {report : CleaningReport}

/-- **The report accounts for every bar.** The bars that went in are those that came out, the
duplicates and those of each defect, and what is said to be dropped is just that. Each bar that is
not sound is counted under the first rule that it breaks. Of the sound bars there is one to a time,
and the others are duplicates. Gaps are the bars that show one; suspicious bars are those that show
it and some that show a gap. -/
theorem report_accounts (h : clean settings raw = .ok (series, report)) :
    (report.inputBars = raw.length ∧ report.outputBars = series.length ∧
      report.inputBars = report.outputBars + report.duplicates + report.invalidPrice +
        report.invalidRange + report.negativeVolume ∧
      report.dropped = report.duplicates + report.invalidPrice + report.invalidRange +
        report.negativeVolume) ∧
    ((∀ b ∈ raw, (∃! d, b.Breaks d) ↔ ¬b.Sound) ∧
      report.invalidPrice = raw.countP (fun b => decide (b.Breaks .price)) ∧
      report.invalidRange = raw.countP (fun b => decide (b.Breaks .range)) ∧
      report.negativeVolume = raw.countP fun b => decide (b.Breaks .volume)) ∧
    report.duplicates + (soundTimes raw).card = raw.countP (fun b => decide b.Sound) ∧
    report.gaps = series.countP (fun b => decide (b.quality = .gap)) ∧
    series.countP (fun b => decide (b.quality = .suspicious)) ≤ report.suspicious ∧
    report.suspicious ≤
      series.countP (fun b => decide (b.quality = .suspicious)) + report.gaps := by
  obtain ⟨hfinished, hreport⟩ := clean_eq_ok_iff.mp h
  have hlength : series.length = (ordered raw).length := by
    simpa using congrArg List.length (map_unmarked_of_finished hfinished)
  have hvalid := superseded_add_length_ordered raw
  have hparts := countP_isValid_add_defects raw
  have hsound : raw.countP (fun b => decide b.Sound) = raw.countP Bar.isValid := by
    refine List.countP_congr fun b _ => ?_
    rw [decide_eq_true_eq, Bar.isValid_iff_sound]
  -- a bar is sound or has one defect, and a sound one is kept or superseded
  have htotal : report.inputBars = report.outputBars + report.duplicates + report.invalidPrice +
      report.invalidRange + report.negativeVolume := by
    simp only [hreport]
    omega
  refine ⟨⟨?_, ?_, htotal, ?_⟩, ⟨fun b _ => Bar.existsUnique_breaks, ?_, ?_, ?_⟩, ?_,
    (countP_gap h).symm, countP_suspicious_le h, suspicious_le_countP h⟩
  · rw [hreport]
  · rw [hreport, hlength]
  · unfold CleaningReport.dropped
    omega
  · rw [hreport, ← countP_defect]
  · rw [hreport, ← countP_defect]
  · rw [hreport, ← countP_defect]
  · rw [hsound, ← length_ordered, hreport]
    show raw.countP Bar.isValid - (ordered raw).length + (ordered raw).length = _
    omega

/-- Of the six raw bars three are dropped: one breaks the rule on volumes, one the rule on ranges,
and of the two sound bars of one time one is a duplicate. -/
theorem report_accounts_sample :
    clean .usual sampleRaw = .ok (sampleMarked, sampleReport) ∧ sampleReport.dropped = 3 ∧
      sampleReport.duplicates + 3 = 4 ∧
      sampleRaw.countP (fun b => decide (b.Breaks .range)) = 1 ∧
      sampleRaw.countP (fun b => decide (b.Breaks .volume)) = 1 ∧
      sampleMarked.countP (fun b => decide (b.quality = .gap)) = 1 := by
  obtain ⟨-, ⟨-, -, hrange, hvolume⟩, hduplicates, hgaps, -, -⟩ := report_accounts clean_sampleRaw
  have hsound : sampleRaw.countP (fun b => decide b.Sound) = 4 := by decide +kernel
  rw [card_soundTimes_sampleRaw, hsound] at hduplicates
  exact ⟨clean_sampleRaw, rfl, hduplicates, hrange.symm, hvolume.symm, hgaps.symm⟩

end MarketReplay
