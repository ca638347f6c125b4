import MarketReplay.Proofs.Cleaning.Qualities
import MarketReplay.Proofs.Indicator.CarriedSum

/-!
# Volumes that have left the lookback

A volume counts for the bars behind it as far as the lookback reaches. The window that the marks are
made with holds no volume that is further away, but it carries the sum of the volumes along. **As
long as all volumes are whole numbers of moderate size, a bar is marked by its lookback alone**: two
series that agree there give it one quality, whatever came before (`volumes_forgotten`). **A volume
that is infinite is not forgotten.** It leaves `NaN` in the place of the sum, and no later volume is
ever found suspicious again (`infinite_volume_remembered`).

Both are statements about doubles. Over exact numbers there is nothing to show: the carried sum is
the sum of the values held. The threshold for gaps is set in the theorems, since one that follows
from the median looks at the whole series, the far past included.
-/

set_option autoImplicit false

namespace MarketReplay

/-- The bar at a place and the `n` bars before it. Two series agree on a lookback when these lists
are equal, qualities aside. -/
def recent {α : Type} (series : List (Bar α)) (n i : Nat) : List (Bar α) :=
  (series.drop (i - n)).take (n + 1)

section recent

variable {α : Type} {series series' : List (Bar α)} {n i i' k : Nat}

theorem map_volume_unmarked (bars : List (Bar α)) :
    (bars.map Bar.unmarked).map Bar.volume = bars.map Bar.volume := by
  rw [List.map_map]
  rfl

theorem getElem?_recent (hk : k ≤ n) : (recent series n i)[k]? = series[i - n + k]? := by
  rw [recent, List.getElem?_take_of_lt (Nat.lt_succ_of_le hk), List.getElem?_drop]

theorem volumes_recent (hn : n ≤ i) (hi : i ≤ series.length) :
    ((series.take i).map Bar.volume).rtake n = ((recent series n i).take n).map Bar.volume := by
  have hlength : ((series.take i).map Bar.volume).length = i := by
    rw [List.length_map, List.length_take, Nat.min_eq_left hi]
  have hcount : i - (i - n) = n := by omega
  rw [List.rtake, hlength, ← List.map_drop, List.drop_take, hcount, recent, List.take_take,
    Nat.min_eq_left (Nat.le_succ n)]

variable (hsame : (recent series n i).map Bar.unmarked = (recent series' n i').map Bar.unmarked)
include hsame

theorem volumes_congr (hn : n ≤ i) (hn' : n ≤ i') (hi : i ≤ series.length)
    (hi' : i' ≤ series'.length) :
    ((series.take i).map Bar.volume).rtake n = ((series'.take i').map Bar.volume).rtake n := by
  have htake := congrArg (List.take n) hsame
  rw [← List.map_take, ← List.map_take] at htake
  rw [volumes_recent hn hi, volumes_recent hn' hi', ← map_volume_unmarked, htake,
    map_volume_unmarked]

theorem unmarked_congr (hk : k ≤ n) {bar bar' : Bar α} (hbar : series[i - n + k]? = some bar)
    (hbar' : series'[i' - n + k]? = some bar') : bar.unmarked = bar'.unmarked := by
  have hplace := congrArg (·[k]?) hsame
  simpa [getElem?_recent hk, hbar, hbar'] using hplace

end recent

/-! ## Spikes

A spike is decided by the number of the volumes in the window and by their sum. The number never
remembers anything, so all that is to be shown is about the sum. -/

section spikes

variable {settings : CleaningSettings Float} {volumes volumes' : RollingWindow Float}

/-- Whether a volume is a spike is a matter of how many volumes there are and of their sum. The sum
is the one that is carried along, which need not be the sum of what the window holds. -/
theorem spikes_congr (hsize : volumes.size = volumes'.size) (hsum : volumes.sum = volumes'.sum)
    (volume : Float) : spikes settings volumes volume = spikes settings volumes' volume := by
  unfold spikes RollingWindow.isEmpty
  rw [hsize, hsum]

/-- A sum that is `NaN` has no spikes. The mean is `NaN` too then, and is not above zero. -/
theorem spikes_of_isNaN (hsum : Scalar.isNaN volumes.sum = true) (volume : Float) :
    spikes settings volumes volume = false := by
  unfold spikes
  split
  · have hmean := Double.isNaN_div hsum (Scalar.ofNat volumes.size)
    rw [Bool.and_eq_false_iff]
    exact .inl (decide_eq_false (Double.not_lt_of_isNaN hmean))
  · rfl

variable {series series' : List (Bar Float)} {i i' : Nat}

/-- The window has counted the volumes before it when they are small whole numbers. The counts are
witnesses for the exact sum and are not used for anything else. -/
theorem exists_tallies (h : ∀ b ∈ series.take i, Double.Moderate settings.lookback b.volume) :
    ∃ counts, (volumesBefore settings series i).Tallies counts :=
  (RollingWindow.Tallies.empty settings.volumeLookback).fed (List.forall_mem_map.mpr h)

/-- Whole numbers before two places, with the same lookback, have the same spikes there. The windows
hold the same values, and under whole numbers this determines the carried sum. -/
theorem spikes_eq_of_moderate
    (hmoderate : ∀ b ∈ series.take i, Double.Moderate settings.lookback b.volume)
    (hmoderate' : ∀ b ∈ series'.take i', Double.Moderate settings.lookback b.volume)
    (hsame : ((series.take i).map Bar.volume).rtake settings.lookback =
      ((series'.take i').map Bar.volume).rtake settings.lookback) (volume : Float) :
    spikes settings (volumesBefore settings series i) volume =
      spikes settings (volumesBefore settings series' i') volume := by
  have hlist : (volumesBefore settings series i).toList =
      (volumesBefore settings series' i').toList := by
    rw [toList_volumesBefore, toList_volumesBefore, hsame]
  have hsize : (volumesBefore settings series i).size =
      (volumesBefore settings series' i').size := by
    rw [← RollingWindow.length_toList, hlist, RollingWindow.length_toList]
  obtain ⟨counts, htallies⟩ := exists_tallies hmoderate
  obtain ⟨counts', htallies'⟩ := exists_tallies hmoderate'
  exact spikes_congr hsize (htallies.sum_congr htallies' hlist) volume

theorem spikes_of_infinite (hi : i ≤ series.length) (hplace : settings.lookback ≤ i)
    {bad : Bar Float} (hbad : bad ∈ series.take (i - settings.lookback))
    (hinfinite : bad.volume.toModel.unpack = .infinity .positive) (volume : Float) :
    spikes settings (volumesBefore settings series i) volume = false := by
  obtain ⟨earlier, later, hsplit⟩ := List.append_of_mem hbad
  have hcut : series.take i = series.take (i - settings.lookback) ++
      (series.drop (i - settings.lookback)).take settings.lookback := by
    rw [← List.take_add, Nat.sub_add_cancel hplace]
  refine spikes_of_isNaN ?_ volume
  rw [volumesBefore, hcut, hsplit, List.append_assoc, List.cons_append, List.map_append,
    List.map_cons]
  refine RollingWindow.isNaN_sum_fed _ hinfinite _ ?_
  show settings.lookback ≤ _
  rw [List.length_map, List.length_append, List.length_take, List.length_drop]
  omega

end spikes

/-! ## Two series

From windows back to qualities. A quality has three sources, the gap, the jump and the spike; the
first two read one bar back, which the lookback always covers. -/

section series

variable {settings : CleaningSettings Float} {raw raw' series series' : List (Bar Float)}
  {report report' : CleaningReport} {before before' bar bar' : Bar Float} {gap : Int} {i i' : Nat}

/-- The quality of a bar, when the longest interval that is no gap is set. It is written out by its
three sources, so that each can be compared on its own. -/
theorem quality_of_set (hgap : settings.maxGap = some gap)
    (h : clean settings raw = .ok (series, report)) (hbefore : series[i]? = some before)
    (hbar : series[i + 1]? = some bar) :
    bar.quality = Marks.quality
      ⟨decide (gap < bar.timestamp - before.timestamp),
        jumps settings before bar ||
          spikes settings (volumesBefore settings series (i + 1)) bar.volume⟩ := by
  have hthreshold (times : List Int) : gapThreshold? settings times = some gap := by
    unfold gapThreshold?
    rw [hgap]
  rw [quality_after h hbefore hbar, hthreshold]
  rfl

/-- Behind whole numbers of moderate size, bars that agree on the lookback have one quality. The
bars themselves and the bars before them agree up to quality, and the volumes by the lemma on
spikes. -/
theorem quality_eq_of_moderate (hgap : settings.maxGap = some gap)
    (h : clean settings raw = .ok (series, report))
    (h' : clean settings raw' = .ok (series', report'))
    (hplace : settings.lookback ≤ i + 1) (hplace' : settings.lookback ≤ i' + 1)
    (hbefore : series[i]? = some before) (hbar : series[i + 1]? = some bar)
    (hbefore' : series'[i']? = some before') (hbar' : series'[i' + 1]? = some bar')
    (hsame : (recent series settings.lookback (i + 1)).map Bar.unmarked =
      (recent series' settings.lookback (i' + 1)).map Bar.unmarked)
    (hmoderate : ∀ b ∈ series.take (i + 1), Double.Moderate settings.lookback b.volume)
    (hmoderate' : ∀ b ∈ series'.take (i' + 1), Double.Moderate settings.lookback b.volume) :
    bar.quality = bar'.quality := by
  have hpos : 1 ≤ settings.lookback := Nat.le_max_right ..
  obtain ⟨hi, -⟩ := List.getElem?_eq_some_iff.mp hbar
  obtain ⟨hi', -⟩ := List.getElem?_eq_some_iff.mp hbar'
  have hvolumes := volumes_congr hsame hplace hplace' hi.le hi'.le
  -- the last of the recent bars is the bar, and the one before the last the bar before it
  have hlast : bar.unmarked = bar'.unmarked := by
    refine unmarked_congr hsame (Nat.le_refl settings.lookback) ?_ ?_
    · rwa [Nat.sub_add_cancel hplace]
    · rwa [Nat.sub_add_cancel hplace']
  have hprevious : before.unmarked = before'.unmarked := by
    refine unmarked_congr hsame (Nat.sub_le settings.lookback 1) ?_ ?_
    · rwa [show i + 1 - settings.lookback + (settings.lookback - 1) = i by omega]
    · rwa [show i' + 1 - settings.lookback + (settings.lookback - 1) = i' by omega]
  rw [quality_of_set hgap h hbefore hbar, quality_of_set hgap h' hbefore' hbar',
    Bar.eq_of_unmarked_eq hlast, Bar.eq_of_unmarked_eq hprevious,
    spikes_eq_of_moderate hmoderate hmoderate' hvolumes]
  rfl

theorem quality_of_infinite (hgap : settings.maxGap = some gap)
    (h : clean settings raw = .ok (series, report)) (hplace : settings.lookback ≤ i + 1)
    (hbefore : series[i]? = some before) (hbar : series[i + 1]? = some bar)
    (hbad : ∃ b ∈ series.take (i + 1 - settings.lookback), Scalar.isFinite b.volume = false) :
    bar.quality = Marks.quality
      ⟨decide (gap < bar.timestamp - before.timestamp), jumps settings before bar⟩ := by
  obtain ⟨bad, hbad, hinfinite⟩ := hbad
  obtain ⟨hi, -⟩ := List.getElem?_eq_some_iff.mp hbar
  -- a bar that was kept has a volume that is not below zero
  have hsound := sound_of_mem (clean_eq_ok_iff.mp h).1 bad (List.mem_of_mem_take hbad)
  have hunpack := Double.unpack_of_infinite hsound.volume_nonneg hinfinite
  rw [quality_of_set hgap h hbefore hbar, spikes_of_infinite hi.le hplace hbad hunpack,
    Bool.or_false]

/-- **What is forgotten, and what is not.** Of two cleaned series that agree, but for qualities, on
a bar and the lookback before it, the bars have one quality, when all volumes before them are whole
numbers of moderate size. But if there is an infinite volume further back than the lookback, the
volume of the bar no longer has a say in its quality. -/
theorem volumes_forgotten (hgap : settings.maxGap = some gap)
    (h : clean settings raw = .ok (series, report))
    (h' : clean settings raw' = .ok (series', report'))
    (hplace : settings.lookback ≤ i) (hplace' : settings.lookback ≤ i')
    (hbar : series[i]? = some bar) (hbar' : series'[i']? = some bar')
    (hsame : (recent series settings.lookback i).map Bar.unmarked =
      (recent series' settings.lookback i').map Bar.unmarked) :
    ((∀ b ∈ series.take i ++ series'.take i', Double.Moderate settings.lookback b.volume) →
      bar.quality = bar'.quality) ∧
    ((∃ b ∈ series.take (i - settings.lookback), Scalar.isFinite b.volume = false) →
      ∃ before, series[i - 1]? = some before ∧
        bar.quality = Marks.quality
          ⟨decide (gap < bar.timestamp - before.timestamp), jumps settings before bar⟩) := by
  have hpos : 1 ≤ settings.lookback := Nat.le_max_right ..
  obtain ⟨hi, -⟩ := List.getElem?_eq_some_iff.mp hbar
  obtain ⟨hi', -⟩ := List.getElem?_eq_some_iff.mp hbar'
  -- both places have a bar before them
  obtain ⟨j, rfl⟩ : ∃ j, i = j + 1 := ⟨i - 1, by omega⟩
  obtain ⟨j', rfl⟩ : ∃ j', i' = j' + 1 := ⟨i' - 1, by omega⟩
  have hbefore : series[j]? = some series[j] := List.getElem?_eq_getElem _
  have hbefore' : series'[j']? = some series'[j'] := List.getElem?_eq_getElem _
  refine ⟨fun hmoderate => ?_, fun hbad => ?_⟩
  · obtain ⟨hmoderate, hmoderate'⟩ := List.forall_mem_append.mp hmoderate
    exact quality_eq_of_moderate hgap h h' hplace hplace' hbefore hbar hbefore' hbar' hsame
      hmoderate hmoderate'
  · exact ⟨series[j], hbefore, quality_of_infinite hgap h hplace hbefore hbar hbad⟩

end series

/-- Settings with a lookback of one bar. -/
def sampleLookback : CleaningSettings Float :=
  { CleaningSettings.usual with
    maxGap := some 60
    volumeLookback := 1
    minVolumeHistory := 1 }

/-- Three bars of one price; the last has a hundred times the volume of the one before it. -/
def sampleVolumes (first : Float) : List (Bar Float) :=
  [.ofPrices 0 10 11 9 10 first, .ofPrices 60 10 11 9 10 1, .ofPrices 120 10 11 9 10 100]

theorem clean_sampleVolumes (first : Float) (marks : List Marks)
    (hsound : ∀ b ∈ sampleVolumes first, b.Sound)
    (hmarks : marksOf sampleLookback (sampleVolumes first) = marks) :
    ∃ report, clean sampleLookback (sampleVolumes first) =
      .ok (withMarks (sampleVolumes first) marks, report) := by
  have horder : Chronological (sampleVolumes first) := by
    simp [Chronological, sampleVolumes, Bar.ofPrices]
  rw [← hmarks]
  exact ⟨_, clean_of_sound hsound horder (show 1 ≤ 3 by decide)⟩

theorem recent_sampleVolumes (first : Float) (m₀ m₁ m₂ : Marks) :
    (recent (withMarks (sampleVolumes first) [m₀, m₁, m₂]) sampleLookback.lookback 2).map
      Bar.unmarked = (sampleVolumes 0).tail := rfl

/-- The first of the three bars is out of the sight of the last. A whole number there makes no
difference to it; an infinite volume there takes its own volume out of its quality. -/
theorem volumes_forgotten_sample :
    (∃ series report series' report' bar bar',
      clean sampleLookback (sampleVolumes 7) = .ok (series, report) ∧
      clean sampleLookback (sampleVolumes 3) = .ok (series', report') ∧
      series[2]? = some bar ∧ series'[2]? = some bar' ∧ bar.quality = bar'.quality) ∧
    ∃ series report before bar,
      clean sampleLookback (sampleVolumes (1 / 0)) = .ok (series, report) ∧
      series[1]? = some before ∧ series[2]? = some bar ∧
      bar.quality = Marks.quality
        ⟨decide (60 < bar.timestamp - before.timestamp), jumps sampleLookback before bar⟩ := by
  obtain ⟨report, hclean⟩ := clean_sampleVolumes 7
    [⟨false, false⟩, ⟨false, false⟩, ⟨false, true⟩] (by decide +kernel) (by decide +kernel)
  obtain ⟨report', hclean'⟩ := clean_sampleVolumes 3
    [⟨false, false⟩, ⟨false, false⟩, ⟨false, true⟩] (by decide +kernel) (by decide +kernel)
  obtain ⟨report'', hclean''⟩ := clean_sampleVolumes (1 / 0)
    [⟨false, false⟩, ⟨false, false⟩, ⟨false, false⟩] (by decide +kernel) (by decide +kernel)
  have hmoderate : ∀ v ∈ [7, 1, 3, 1], Double.Moderate 1 v := by
    have hseven : Double.Moderate 1 7 := ⟨7, by decide, by decide +kernel⟩
    have hthree : Double.Moderate 1 3 := ⟨3, by decide, by decide +kernel⟩
    have hone : Double.Moderate 1 1 := ⟨1, by decide, by decide +kernel⟩
    simp [hseven, hthree, hone]
  have hplace : sampleLookback.lookback ≤ 2 := by decide
  refine ⟨⟨_, report, _, report', _, _, hclean, hclean', rfl, rfl, ?_⟩, ?_⟩
  · obtain ⟨hforgotten, -⟩ := volumes_forgotten rfl hclean hclean' hplace hplace rfl rfl
      (by rw [recent_sampleVolumes, recent_sampleVolumes])
    exact hforgotten fun b hb => hmoderate b.volume (List.mem_map_of_mem (f := Bar.volume) hb)
  · obtain ⟨-, hremembered⟩ := volumes_forgotten rfl hclean'' hclean hplace hplace rfl rfl
      (by rw [recent_sampleVolumes, recent_sampleVolumes])
    obtain ⟨before, hbefore, hquality⟩ := hremembered ⟨_, List.mem_cons_self, by decide +kernel⟩
    exact ⟨_, report'', before, _, hclean'', hbefore, rfl, hquality⟩

/-- An infinite volume that is two bars away, and out of the lookback of one bar, decides the
quality of a bar. The two series have the same bars within the lookback, with the volumes 1 and 100.
Behind an ordinary volume the last bar is suspicious, and behind an infinite one it is good. -/
theorem infinite_volume_remembered :
    ∃ series report series' report' bar bar',
      clean sampleLookback (sampleVolumes (1 / 0)) = .ok (series, report) ∧
      clean sampleLookback (sampleVolumes 1) = .ok (series', report') ∧
      sampleLookback.maxGap = some 60 ∧ sampleLookback.lookback = 1 ∧
      series[2]? = some bar ∧ series'[2]? = some bar' ∧
      (recent series 1 2).map Bar.unmarked = (recent series' 1 2).map Bar.unmarked ∧
      ((recent series 1 2).map Bar.volume = [1, 100]) ∧
      bar.quality = .good ∧ bar'.quality = .suspicious := by
  obtain ⟨report, hclean⟩ := clean_sampleVolumes (1 / 0)
    [⟨false, false⟩, ⟨false, false⟩, ⟨false, false⟩] (by decide +kernel) (by decide +kernel)
  obtain ⟨report', hclean'⟩ := clean_sampleVolumes 1
    [⟨false, false⟩, ⟨false, false⟩, ⟨false, true⟩] (by decide +kernel) (by decide +kernel)
  have hsame := (recent_sampleVolumes (1 / 0) ⟨false, false⟩ ⟨false, false⟩ ⟨false, false⟩).trans
    (recent_sampleVolumes 1 ⟨false, false⟩ ⟨false, false⟩ ⟨false, true⟩).symm
  exact ⟨_, report, _, report', _, _, hclean, hclean', rfl, rfl, rfl, rfl, hsame, rfl, rfl, rfl⟩

end MarketReplay
