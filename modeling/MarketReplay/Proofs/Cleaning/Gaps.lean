import Mathlib.Data.Rat.Floor
import MarketReplay.Proofs.Cleaning.Median
import MarketReplay.Proofs.Cleaning.Qualities
import MarketReplay.Proofs.Cleaning.Words
import MarketReplay.Proofs.Scalar

/-!
# Gaps and jumps

Which bars of a cleaned series are marked for the interval before them or for a move of the price
(`gaps_and_jumps`). An interval is a gap when it is longer than the threshold, which is set or else
follows from the median of the series itself; **in the second case not more than half of the
intervals are gaps**.

The marks are given one after the other along the series. Seen as a whole, the gaps are the steps
that are longer than the threshold (`countP_gap_marksOf`), and a threshold that is not below the
median has at most half of the steps above it.

Timestamps have no bounds in the definitions, and words of 64 bits in a machine. What is said of
gaps is therefore said of timestamps whose steps are words, and for those it is said twice: of the
numbers, and of the words that a machine works out in their place (`quality_eq_gap_iff_words`).
-/

set_option autoImplicit false

namespace MarketReplay

/-! ## The steps that are gaps

The mark of a gap reads two timestamps and a threshold, and neither prices nor the window. Counting
these marks along the series is counting the steps that lead to them. -/

section

variable {α : Type} [Scalar α] {settings : CleaningSettings α} {bars : List (Bar α)}
  {before bar : Bar α} {threshold : Option Int} {volumes : RollingWindow α}

theorem gap_marksAfter_iff :
    (marksAfter settings threshold volumes before bar).gap = true ↔
      ∃ t, threshold = some t ∧ t < bar.timestamp - before.timestamp := by
  cases threshold <;> simp [marksAfter]

theorem suspicious_marksAfter :
    (marksAfter settings threshold volumes before bar).suspicious =
      (jumps settings before bar || spikes settings volumes bar.volume) := rfl

theorem suspicious_of_jumps (h : jumps settings before bar = true) :
    (marksAfter settings threshold volumes before bar).suspicious = true := by
  rw [suspicious_marksAfter, h, Bool.true_or]

theorem countP_gap_marksAlong (t : Int) (first : Bar α) (volumes : RollingWindow α) :
    (marksAlong settings (some t) (some first) volumes bars).countP Marks.gap =
      (steps ((first :: bars).map Bar.timestamp)).countP fun d => decide (t < d) := by
  induction bars generalizing first volumes with
  | nil => rfl
  | cons bar rest ih =>
    have hgap : (marksAfter settings (some t) volumes first bar).gap =
        decide (t < bar.timestamp - first.timestamp) := rfl
    rw [marksAlong, List.countP_cons, ih, hgap]
    simp only [List.map_cons, steps, List.countP_cons]

/-- **The gaps of a series are its steps that are longer than the threshold.** By this a count of
bars becomes a count of steps, which is what the median speaks of. -/
theorem countP_gap_marksOf {t : Int}
    (ht : gapThreshold? settings (bars.map Bar.timestamp) = some t) :
    (marksOf settings bars).countP Marks.gap =
      (steps (bars.map Bar.timestamp)).countP fun d => decide (t < d) := by
  unfold marksOf
  rw [ht]
  cases bars with
  | nil => rfl
  | cons first rest =>
    rw [marksAlong, List.countP_cons, countP_gap_marksAlong]
    rfl

end

/-! ## Over the rationals

Prices, volumes and the multiple of the median are exact here. The threshold is a floor and the
moves are absolute values, as they are written. -/

variable {settings : CleaningSettings ℚ} {raw series : List (Bar ℚ)} {report : CleaningReport}

theorem gapThreshold?_of_unset (hunset : settings.maxGap = none) (times : List Int) :
    gapThreshold? settings times =
      (medianInterval? times).map fun median : Int => ⌊settings.gapTolerance * median⌋ := by
  unfold gapThreshold?
  simp only [hunset]
  refine congrArg (fun f => (medianInterval? times).map f) (funext fun median => ?_)
  rw [mul_comm]
  rfl

theorem jumps_iff {before bar : Bar ℚ} :
    jumps settings before bar = true ↔
      settings.priceJump < |bar.closing / before.closing - 1| := by
  unfold jumps
  rw [abs_rat, decide_eq_true_eq]
  exact Iff.rfl

/-- A series in order has a threshold unless it is a single bar and none is set. In order all steps
lead forwards, so that there is a median as soon as there is a step. -/
theorem gapThreshold?_eq_none_iff {times : List Int} (horder : times.Pairwise (· < ·)) :
    gapThreshold? settings times = none ↔ settings.maxGap = none ∧ times.length ≤ 1 := by
  cases hgap : settings.maxGap with
  | none =>
    rw [gapThreshold?_of_unset hgap, Option.map_eq_none_iff, medianInterval?_eq_none_iff horder,
      and_iff_right rfl]
  | some gap =>
    unfold gapThreshold?
    simp [hgap]

theorem countP_lt_anti {low high : Int} (h : low ≤ high) (values : List Int) :
    values.countP (fun v => decide (high < v)) ≤ values.countP fun v => decide (low < v) := by
  refine List.countP_mono_left fun v _ hv => ?_
  exact decide_eq_true (h.trans_lt (of_decide_eq_true hv))

/-- **A threshold that follows from the median leaves at most half of the intervals as gaps.** A
multiple of one at least is not below the median, and at most half of the steps are above that. -/
theorem two_mul_countP_gap_le {bars : List (Bar ℚ)} (horder : Chronological bars)
    (hunset : settings.maxGap = none) (htolerance : 1 ≤ settings.gapTolerance) :
    2 * (marksOf settings bars).countP Marks.gap ≤ bars.length - 1 := by
  have htimes := chronological_iff_times.mp horder
  cases hmedian : medianInterval? (bars.map Bar.timestamp) with
  | none =>
    -- a series without steps is a single bar at most, and a first bar has no marks
    have hshort := (medianInterval?_eq_none_iff htimes).mp hmedian
    rcases bars with _ | ⟨first, _ | ⟨second, rest⟩⟩
    · simp [marksOf, marksAlong]
    · simp [marksOf, marksAlong]
    · simp at hshort
  | some median =>
    have hthreshold : gapThreshold? settings (bars.map Bar.timestamp) =
        some ⌊settings.gapTolerance * median⌋ := by
      rw [gapThreshold?_of_unset hunset, hmedian]
      rfl
    have hle : median ≤ ⌊settings.gapTolerance * median⌋ := by
      have hpos : (0 : ℚ) ≤ median := by exact_mod_cast (medianInterval?_pos hmedian).le
      exact Int.le_floor.mpr (le_mul_of_one_le_left hpos htolerance)
    have hfewer := countP_lt_anti hle (steps (bars.map Bar.timestamp))
    have hhalf := two_mul_countP_steps_le htimes hmedian
    rw [List.length_map] at hhalf
    rw [countP_gap_marksOf hthreshold]
    omega

/-- A bar of a cleaned series shows a gap exactly if there is a bar before it, a threshold, and more
between the two bars than the threshold. -/
theorem quality_eq_gap_iff (h : clean settings raw = .ok (series, report)) {i : Nat} {bar : Bar ℚ}
    (hbar : series[i]? = some bar) :
    bar.quality = .gap ↔ ∃ (j : Nat) (before : Bar ℚ) (t : Int), i = j + 1 ∧
      series[j]? = some before ∧ gapThreshold? settings (series.map Bar.timestamp) = some t ∧
        t < bar.timestamp - before.timestamp := by
  cases i with
  | zero =>
    rw [quality_first h hbar]
    simp
  | succ j =>
    have hj : j < series.length := by
      have := (List.getElem?_eq_some_iff.mp hbar).1
      omega
    have hbefore : series[j]? = some series[j] := List.getElem?_eq_getElem hj
    rw [quality_after h hbefore hbar, Marks.quality_eq_gap_iff, gap_marksAfter_iff]
    constructor
    · rintro ⟨t, ht, hlong⟩
      exact ⟨j, series[j], t, rfl, hbefore, ht, hlong⟩
    · rintro ⟨k, before, t, hk, hk', ht, hlong⟩
      -- the bar before is the one at the place before
      obtain rfl := Nat.succ.inj hk
      obtain rfl := Option.some.inj (hbefore.symm.trans hk')
      exact ⟨t, ht, hlong⟩

theorem sub_mem_steps_of_bars {i : Nat} {before bar : Bar ℚ} (hbefore : series[i]? = some before)
    (hbar : series[i + 1]? = some bar) :
    bar.timestamp - before.timestamp ∈ steps (series.map Bar.timestamp) := by
  refine sub_mem_steps (j := i) ?_ ?_
  · rw [List.getElem?_map, hbefore, Option.map_some]
  · rw [List.getElem?_map, hbar, Option.map_some]

/-- **The gaps that a machine finds are these.** Its differences and its threshold are words, and it
takes the same decision on every bar as long as its words are enough. -/
theorem quality_eq_gap_iff_words (h : clean settings raw = .ok (series, report))
    (hfits : StepsFit settings (series.map Bar.timestamp)) {i : Nat} {bar : Bar ℚ}
    (hbar : series[i]? = some bar) :
    bar.quality = .gap ↔ ∃ (j : Nat) (before : Bar ℚ) (t : Int), i = j + 1 ∧
      series[j]? = some before ∧ wordThreshold? settings (series.map Bar.timestamp) = some t ∧
        t < inWord (bar.timestamp - before.timestamp) := by
  have horder := chronological_iff_times.mp (chronological_of_clean h).1
  rw [quality_eq_gap_iff h hbar]
  constructor
  · rintro ⟨j, before, t, rfl, hbefore, hlong⟩
    obtain ⟨word, hword⟩ := (exists_wordThreshold?_lt_iff hfits horder
      (sub_mem_steps_of_bars hbefore hbar)).mpr ⟨t, hlong⟩
    exact ⟨j, before, word, rfl, hbefore, hword⟩
  · rintro ⟨j, before, word, rfl, hbefore, hword⟩
    obtain ⟨t, hlong⟩ := (exists_wordThreshold?_lt_iff hfits horder
      (sub_mem_steps_of_bars hbefore hbar)).mp ⟨word, hword⟩
    exact ⟨j, before, t, rfl, hbefore, hlong⟩

/-- **Gaps and jumps of a cleaned series.** What concerns intervals is said of timestamps whose
steps are words, as far as a run of the program can be relied on. The threshold is the one that is
set, or the multiple of the median interval, rounded down; only a single bar has none. A bar shows a
gap when the interval before it is longer, and the words of a machine tell the same gaps. With a
threshold that follows from the median at most half of the intervals are gaps.

The rest holds of all timestamps. The report counts just the gaps that are shown. A bar whose price
moved further than the limit is counted as suspicious, and shows that or the gap before it. The
first bar is good. -/
theorem gaps_and_jumps (h : clean settings raw = .ok (series, report)) :
    (StepsFit settings (series.map Bar.timestamp) →
      ((∀ gap, settings.maxGap = some gap →
          gapThreshold? settings (series.map Bar.timestamp) = some gap) ∧
        (settings.maxGap = none → gapThreshold? settings (series.map Bar.timestamp) =
          (medianInterval? (series.map Bar.timestamp)).map fun median : Int =>
            ⌊settings.gapTolerance * median⌋) ∧
        (gapThreshold? settings (series.map Bar.timestamp) = none ↔
          settings.maxGap = none ∧ series.length = 1)) ∧
      (∀ (i : Nat) (bar : Bar ℚ), series[i]? = some bar →
        (bar.quality = .gap ↔
          ∃ (j : Nat) (before : Bar ℚ) (t : Int), i = j + 1 ∧ series[j]? = some before ∧
            gapThreshold? settings (series.map Bar.timestamp) = some t ∧
            t < bar.timestamp - before.timestamp) ∧
        (bar.quality = .gap ↔
          ∃ (j : Nat) (before : Bar ℚ) (t : Int), i = j + 1 ∧ series[j]? = some before ∧
            wordThreshold? settings (series.map Bar.timestamp) = some t ∧
            t < inWord (bar.timestamp - before.timestamp))) ∧
      (settings.maxGap = none → 1 ≤ settings.gapTolerance →
        2 * series.countP (fun b => decide (b.quality = .gap)) ≤ series.length - 1)) ∧
    report.gaps = series.countP (fun b => decide (b.quality = .gap)) ∧
    ((∀ (i : Nat) (before bar : Bar ℚ), series[i]? = some before → series[i + 1]? = some bar →
        settings.priceJump < |bar.closing / before.closing - 1| →
          (bar.quality = .gap ∨ bar.quality = .suspicious) ∧
            ∃ m, (marksOf settings series)[i + 1]? = some m ∧ m.suspicious = true) ∧
      report.suspicious = (marksOf settings series).countP Marks.suspicious ∧
      series.countP (fun b => decide (b.quality = .suspicious)) ≤ report.suspicious) ∧
    (∀ bar : Bar ℚ, series[0]? = some bar → bar.quality = .good) := by
  obtain ⟨horder, hlength⟩ := chronological_of_clean h
  refine ⟨fun hfits => ⟨⟨?_, fun hunset => gapThreshold?_of_unset hunset _, ?_⟩, ?_, ?_⟩,
    (countP_gap h).symm, ⟨?_, (marks_of_report h).2, countP_suspicious_le h⟩,
    fun bar => quality_first h⟩
  · intro gap hgap
    unfold gapThreshold?
    rw [hgap]
  · -- times that grow have a step as soon as there are two of them
    rw [gapThreshold?_eq_none_iff (chronological_iff_times.mp horder), List.length_map]
    exact and_congr_right fun _ => by omega
  · exact fun i bar hbar => ⟨quality_eq_gap_iff h hbar, quality_eq_gap_iff_words h hfits hbar⟩
  · intro hunset htolerance
    rw [countP_gap h, (marks_of_report h).1]
    exact two_mul_countP_gap_le horder hunset htolerance
  · -- a jump marks the bar as suspicious, and a gap is what may be shown in its place
    intro i before bar hbefore hbar hjump
    refine ⟨?_, _, getElem?_marksOf hbefore hbar, suspicious_of_jumps (jumps_iff.mpr hjump)⟩
    rw [quality_after h hbefore hbar]
    exact Marks.quality_of_suspicious (suspicious_of_jumps (jumps_iff.mpr hjump))

theorem stepsFit_sampleMarked : StepsFit (.usual : CleaningSettings ℚ)
    (sampleMarked.map Bar.timestamp) := by
  have hforward : forwardSteps (sampleMarked.map Bar.timestamp) = ([60, 240] : List Int) := by
    decide +kernel
  refine ⟨by decide +kernel, fun _ => ?_⟩
  rw [hforward, Multiset.coe_sort, List.mergeSort_of_pairwise (by decide)]
  rintro - low high ⟨⟩ ⟨⟩
  decide

/-- In the sample series the second interval is a gap, one of two, and behind it the price has
doubled: the last bar is counted as suspicious and shows the gap. -/
theorem gaps_and_jumps_sample :
    clean .usual sampleRaw = .ok (sampleMarked, sampleReport) ∧
      StepsFit (.usual : CleaningSettings ℚ) (sampleMarked.map Bar.timestamp) ∧
      (sampleMarked.map Bar.quality = [.good, .good, .gap] ∧ sampleReport.suspicious = 1) ∧
      (∃ m, (marksOf .usual sampleMarked)[2]? = some m ∧ m.suspicious = true) ∧
      2 * sampleMarked.countP (fun b => decide (b.quality = .gap)) ≤ 2 := by
  obtain ⟨hintervals, -, ⟨hjumps, -, -⟩, -⟩ := gaps_and_jumps clean_sampleRaw
  obtain ⟨-, -, hhalf⟩ := hintervals stepsFit_sampleMarked
  obtain ⟨-, hcounted⟩ := hjumps 1 _ _ rfl rfl (by decide +kernel)
  exact ⟨clean_sampleRaw, stepsFit_sampleMarked, ⟨rfl, rfl⟩, hcounted,
    hhalf rfl (by decide +kernel)⟩

end MarketReplay
