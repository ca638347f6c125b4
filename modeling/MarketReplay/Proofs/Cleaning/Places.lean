import Mathlib.Algebra.Order.BigOperators.Group.List
import Mathlib.Algebra.Order.Field.Rat
import MarketReplay.Proofs.Cleaning.Marks
import MarketReplay.Proofs.Indicator.Trailing

/-!
# The marks of a place

The pass that marks a series carries a window along, and yet the marks of a bar can be said of its
place alone: **a bar is compared with the bar before it and with a window that all volumes before it
have entered** (`getElem?_marksOf`). The first bar has no marks. The window (`volumesBefore`) holds
the volumes of the last bars before the place, as far as the lookback reaches.

Over the rationals that window has their sum too (`trails_volumesBefore`). A volume that does not
stand out from any of these does not stand out from their mean (`spikes_eq_false`).

Every theorem about single bars of a cleaned series starts from `getElem?_marksOf`, and none goes
back to the pass.
-/

set_option autoImplicit false

namespace MarketReplay

section places

variable {α : Type} [Scalar α] {settings : CleaningSettings α} {bars : List (Bar α)}
  {before bar : Bar α} {i : Nat}

/-- The marks at a place of the pass, from the bar and the window that it started with. The
induction is along the bars, for every bar and window that the pass can be at. -/
theorem getElem?_marksAlong {threshold : Option Int} {first : Bar α} {volumes : RollingWindow α}
    (hbefore : (first :: bars)[i]? = some before) (hbar : bars[i]? = some bar) :
    (marksAlong settings threshold (some first) volumes bars)[i]? =
      some (marksAfter settings threshold (volumes.fed ((bars.take i).map Bar.volume))
        before bar) := by
  induction bars generalizing first volumes i with
  | nil => cases hbar
  | cons next rest ih =>
    cases i with
    | zero =>
      cases hbefore
      cases hbar
      rfl
    | succ i =>
      rw [List.getElem?_cons_succ] at hbefore hbar
      exact ih hbefore hbar

/-- How far back a volume is looked at; a lookback of zero counts as one. -/
def CleaningSettings.lookback {α : Type} (settings : CleaningSettings α) : Nat :=
  Nat.max settings.volumeLookback 1

/-- The window that the volumes before a place have entered. The cleaner carries one window along;
this one is built anew for every place, which is the same and can be spoken of without what went
before. -/
def volumesBefore (settings : CleaningSettings α) (bars : List (Bar α)) (i : Nat) :
    RollingWindow α :=
  (RollingWindow.empty settings.volumeLookback).fed ((bars.take i).map Bar.volume)

theorem capacity_volumesBefore : (volumesBefore settings bars i).capacity = settings.lookback :=
  RollingWindow.capacity_fed ..

theorem toList_volumesBefore :
    (volumesBefore settings bars i).toList =
      ((bars.take i).map Bar.volume).rtake settings.lookback := by
  have hempty : (RollingWindow.empty settings.volumeLookback : RollingWindow α).toList =
      ([] : List α).rtake settings.lookback := by
    rw [RollingWindow.toList_empty, List.rtake_nil]
  exact RollingWindow.toList_fed hempty _

/-- **The marks of a bar come from the bar before it and the volumes before it.** What the pass
carries along is told from the series here, and the pass is out of sight afterwards. -/
theorem getElem?_marksOf (hbefore : bars[i]? = some before) (hbar : bars[i + 1]? = some bar) :
    (marksOf settings bars)[i + 1]? =
      some (marksAfter settings (gapThreshold? settings (bars.map Bar.timestamp))
        (volumesBefore settings bars (i + 1)) before bar) := by
  cases bars with
  | nil => cases hbar
  | cons first rest => exact getElem?_marksAlong hbefore hbar

theorem head?_marksOf (h : bars ≠ []) : (marksOf settings bars)[0]? = some ⟨false, false⟩ := by
  cases bars with
  | nil => exact absurd rfl h
  | cons first rest => rfl

end places

/-! ## Volumes that stand out

Over the rationals the carried sum of a window is the sum of its values, and its mean lies between
the least and the greatest of them. -/

section spikes

variable {settings : CleaningSettings ℚ} {volumes : RollingWindow ℚ} {values : List ℚ}
  {low volume : ℚ}

theorem trails_volumesBefore (settings : CleaningSettings ℚ) (bars : List (Bar ℚ)) (i : Nat) :
    (volumesBefore settings bars i).Trails ((bars.take i).map Bar.volume) :=
  (RollingWindow.Trails.empty settings.volumeLookback).fed _

theorem RollingWindow.Trails.le_mean (h : volumes.Trails values) (hsize : volumes.size ≠ 0)
    (hlow : ∀ v ∈ values, low ≤ v) : low ≤ volumes.sum / volumes.size := by
  have hheld : ∀ v ∈ volumes.toList, low ≤ v := by
    intro v hv
    rw [h.toList_eq] at hv
    exact hlow v (List.mem_of_mem_drop hv)
  have hsum := List.card_nsmul_le_sum volumes.toList low hheld
  rw [← h.sum_eq, RollingWindow.length_toList, nsmul_eq_mul, mul_comm] at hsum
  exact (le_div_iff₀ (Nat.cast_pos.mpr (Nat.pos_of_ne_zero hsize))).mpr hsum

/-- A volume that is not a spike over the least volume before it is none over their mean. -/
theorem spikes_eq_false (h : volumes.Trails values) (hlow : ∀ v ∈ values, low ≤ v)
    (hmultiple : 0 ≤ settings.volumeSpike) (hvolume : volume ≤ low * settings.volumeSpike) :
    spikes settings volumes volume = false := by
  unfold spikes
  split
  · rename_i hwarm
    have hsize : volumes.size ≠ 0 := by
      have := hwarm.2
      simpa [RollingWindow.isEmpty] using this
    have hmean : low ≤ volumes.sum / volumes.size := h.le_mean hsize hlow
    have hbound : volume ≤ volumes.sum / volumes.size * settings.volumeSpike :=
      hvolume.trans (mul_le_mul_of_nonneg_right hmean hmultiple)
    rw [Bool.and_eq_false_iff]
    exact Or.inr (decide_eq_false (not_lt.mpr hbound))
  · rfl

end spikes

end MarketReplay
