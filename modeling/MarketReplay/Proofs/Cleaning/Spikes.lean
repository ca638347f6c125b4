import MarketReplay.Proofs.Cleaning.Gaps

/-!
# Volumes that stand out

A volume stands out when it is above a multiple of the mean of the last volumes before it, and when
there are enough volumes before it to tell (`StandsOut`). The window that the marks are made with
holds the volumes of the mean, but it is also what counts them, and it never counts more than it
has room for. So **the bars that stand out are marked when the history that is asked for fits into
the lookback, and none is marked when it does not** (`spikes_counted`), however many bars there are
before it (`spike_missed`).
-/

set_option autoImplicit false

namespace MarketReplay

variable {settings : CleaningSettings ℚ}

/-- The rule on volumes. There are enough earlier ones, the last of them, as many as the lookback
says, have a mean above zero, and the volume is more than the multiple of that mean. How many
earlier ones there are is counted in the series here, and not in the window. -/
def StandsOut (settings : CleaningSettings ℚ) (earlier : List ℚ) (volume : ℚ) : Prop :=
  max 1 settings.minVolumeHistory ≤ earlier.length ∧
    0 < lastMean (min earlier.length settings.volumeLookback) earlier ∧
    settings.volumeSpike * lastMean (min earlier.length settings.volumeLookback) earlier < volume

instance (settings : CleaningSettings ℚ) (earlier : List ℚ) (volume : ℚ) :
    Decidable (StandsOut settings earlier volume) :=
  inferInstanceAs (Decidable (_ ∧ _ ∧ _))

/-! ## The rule and the window

The window has two parts in the rule, the mean and the count. The mean is right; the count ends at
the capacity, which is the whole difference between the rule and the marks. -/

namespace RollingWindow.Trails

variable {volumes : RollingWindow ℚ} {earlier : List ℚ}

theorem mean_eq (h : volumes.Trails earlier) :
    volumes.sum / volumes.size = lastMean (min earlier.length volumes.capacity) earlier := by
  have hlast : earlier.rtake (min earlier.length volumes.capacity) =
      earlier.rtake volumes.capacity := by
    rcases Nat.le_total earlier.length volumes.capacity with hle | hle
    · rw [Nat.min_eq_left hle, rtake_of_length_le (Nat.le_refl _), rtake_of_length_le hle]
    · rw [Nat.min_eq_right hle]
  rw [lastMean, hlast, ← h.toList_eq, ← h.sum_eq, h.size_eq]

/-- A volume is a spike when it stands out and the window has counted enough volumes before it. The
first condition on the right does not mention the volumes at all: it holds of the settings or it
does not. -/
theorem spikes_iff (h : volumes.Trails earlier) (hlookback : 1 ≤ settings.volumeLookback)
    (hcapacity : volumes.capacity = settings.volumeLookback) {volume : ℚ} :
    spikes settings volumes volume = true ↔
      settings.minVolumeHistory ≤ settings.volumeLookback ∧ StandsOut settings earlier volume := by
  have hsize := h.size_eq
  have hmean := h.mean_eq
  -- the window holds no more than its capacity, so that a longer history is never reached
  have henough : (settings.minVolumeHistory ≤ volumes.size ∧ volumes.isEmpty = false) ↔
      settings.minVolumeHistory ≤ settings.volumeLookback ∧
        max 1 settings.minVolumeHistory ≤ earlier.length := by
    have hempty : volumes.isEmpty = false ↔ volumes.size ≠ 0 := by simp [RollingWindow.isEmpty]
    rw [hempty]
    omega
  rw [hcapacity] at hmean
  unfold spikes StandsOut
  rw [← and_assoc, ← henough]
  split
  · rename_i hwarm
    rw [Bool.and_eq_true, decide_eq_true_eq, decide_eq_true_eq, and_iff_right hwarm, ← hmean,
      mul_comm settings.volumeSpike]
    exact Iff.rfl
  · rename_i hcold
    simp [hcold]

end RollingWindow.Trails

/-! ## A cleaned series

Price jumps are ruled out by a hypothesis, because a bar that jumped is suspicious whatever its
volume. -/

variable {raw series : List (Bar ℚ)} {report : CleaningReport} {bar : Bar ℚ} {i : Nat}

theorem suspicious_iff_standsOut (hlookback : 1 ≤ settings.volumeLookback)
    (hcalm : series.IsChain fun a b => ¬settings.priceJump < |b.closing / a.closing - 1|)
    (hbar : series[i]? = some bar) :
    ∃ m, (marksOf settings series)[i]? = some m ∧
      (m.suspicious = true ↔ settings.minVolumeHistory ≤ settings.volumeLookback ∧
        StandsOut settings ((series.take i).map Bar.volume) bar.volume) := by
  obtain ⟨hi, rfl⟩ := List.getElem?_eq_some_iff.mp hbar
  cases i with
  | zero =>
    refine ⟨_, head?_marksOf (List.ne_nil_of_length_pos hi), ?_⟩
    simp [StandsOut]
  | succ i =>
    have hbefore : series[i]? = some series[i] := List.getElem?_eq_getElem _
    -- no jump in front of the bar, so that only its volume can mark it
    have hjump : jumps settings series[i] series[i + 1] = false := by
      rw [← Bool.not_eq_true, jumps_iff]
      exact List.isChain_iff_getElem.mp hcalm i hi
    have htrails := trails_volumesBefore settings series (i + 1)
    have hcapacity : (volumesBefore settings series (i + 1)).capacity = settings.volumeLookback :=
      capacity_volumesBefore.trans (Nat.max_eq_left hlookback)
    refine ⟨_, getElem?_marksOf hbefore hbar, ?_⟩
    rw [← htrails.spikes_iff hlookback hcapacity, suspicious_marksAfter, hjump, Bool.false_or]

/-- **Which volumes are counted as suspicious.** In a series without price jumps a bar is counted
when its volume stands out from those before it, provided that the history asked for is not longer
than the lookback. When it is longer, no bar is counted. -/
theorem spikes_counted (h : clean settings raw = .ok (series, report))
    (hlookback : 1 ≤ settings.volumeLookback)
    (hcalm : series.IsChain fun a b => ¬settings.priceJump < |b.closing / a.closing - 1|) :
    (∀ i bar, series[i]? = some bar → ∃ m, (marksOf settings series)[i]? = some m ∧
      (m.suspicious = true ↔ settings.minVolumeHistory ≤ settings.volumeLookback ∧
        StandsOut settings ((series.take i).map Bar.volume) bar.volume)) ∧
    report.suspicious = (marksOf settings series).countP Marks.suspicious ∧
    (settings.volumeLookback < settings.minVolumeHistory → report.suspicious = 0) := by
  have hcount := (marks_of_report h).2
  refine ⟨fun i bar => suspicious_iff_standsOut hlookback hcalm, hcount, fun hlonger => ?_⟩
  rw [hcount]
  refine List.countP_eq_zero.mpr fun m hm hsuspicious => ?_
  obtain ⟨i, hi⟩ := List.mem_iff_getElem?.mp hm
  have hlength : i < series.length := by
    rw [← length_marksOf settings series]
    exact (List.getElem?_eq_some_iff.mp hi).1
  -- the mark counted is the one of its bar, which says that the history is not longer
  obtain ⟨m', hm', hiff⟩ :=
    suspicious_iff_standsOut hlookback hcalm (List.getElem?_eq_getElem hlength)
  obtain rfl := Option.some.inj (hi.symm.trans hm')
  exact absurd (hiff.mp hsuspicious).1 (Nat.not_le.mpr hlonger)

/-- Two bars of one volume, and a third of a hundred times that. -/
def sampleSurge : List (Bar Rat) :=
  [.ofPrices 0 10 11 9 10 1, .ofPrices 60 10 11 9 10 1, .ofPrices 120 10 11 9 10 100]

/-- Settings that ask for two bars of history. -/
def sampleHistory (lookback : Nat) : CleaningSettings Rat :=
  { CleaningSettings.usual with
    maxGap := some 60
    volumeLookback := lookback
    minVolumeHistory := 2 }

theorem finished_sampleSurge (lookback : Nat) :
    ∃ report, clean (sampleHistory lookback) sampleSurge =
      .ok (withMarks sampleSurge (marksOf (sampleHistory lookback) sampleSurge), report) :=
  ⟨_, clean_of_sound (by decide +kernel) (by unfold Chronological; decide +kernel)
    (show 1 ≤ 3 by decide)⟩

/-- With a lookback of two bars the third bar stands out and is counted. -/
theorem spikes_counted_sample :
    ∃ series report, clean (sampleHistory 2) sampleSurge = .ok (series, report) ∧
      StandsOut (sampleHistory 2) [1, 1] 100 ∧
      ∃ m, (marksOf (sampleHistory 2) series)[2]? = some m ∧ m.suspicious = true := by
  obtain ⟨report, hclean⟩ := finished_sampleSurge 2
  have hmarks : marksOf (sampleHistory 2) sampleSurge =
      [⟨false, false⟩, ⟨false, false⟩, ⟨false, true⟩] := by decide +kernel
  have hstands : StandsOut (sampleHistory 2) [1, 1] 100 := by decide +kernel
  rw [hmarks] at hclean
  obtain ⟨hcounted, -, -⟩ := spikes_counted hclean (by decide)
    (by decide +kernel)
  obtain ⟨m, hm, hiff⟩ := hcounted 2 _ rfl
  exact ⟨_, report, hclean, hstands, m, hm, hiff.mpr ⟨by decide, hstands⟩⟩

/-- With a lookback of one bar the third bar still has two bars before it and stands out, and yet
neither its mark nor the report says so: the window never counts to two. -/
theorem spike_missed :
    ∃ series report, clean (sampleHistory 1) sampleSurge = .ok (series, report) ∧
      (series.IsChain fun a b =>
        ¬(sampleHistory 1).priceJump < |b.closing / a.closing - 1|) ∧
      (∃ bar, series[2]? = some bar ∧
        StandsOut (sampleHistory 1) ((series.take 2).map Bar.volume) bar.volume ∧
        bar.quality = .good) ∧
      (marksOf (sampleHistory 1) series)[2]? = some ⟨false, false⟩ ∧ report.suspicious = 0 := by
  obtain ⟨report, hclean⟩ := finished_sampleSurge 1
  have hmarks : marksOf (sampleHistory 1) sampleSurge = List.replicate 3 ⟨false, false⟩ := by
    decide +kernel
  have hreport := (marks_of_report hclean).2
  rw [hmarks] at hclean hreport
  have hseries : marksOf (sampleHistory 1)
        (withMarks sampleSurge (List.replicate 3 ⟨false, false⟩)) =
      List.replicate 3 ⟨false, false⟩ := by decide +kernel
  rw [hseries] at hreport
  refine ⟨_, report, hclean, by decide +kernel, ⟨_, rfl, by decide +kernel, rfl⟩, ?_, hreport⟩
  rw [hseries]
  rfl

end MarketReplay
