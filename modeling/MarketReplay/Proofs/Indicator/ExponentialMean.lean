import Mathlib.Algebra.BigOperators.Intervals
import Mathlib.Algebra.BigOperators.Ring.Finset
import Mathlib.Algebra.Order.BigOperators.Group.Finset
import Mathlib.Algebra.Order.Field.Basic
import Mathlib.Data.Finset.Max
import Mathlib.Data.List.GetD
import Mathlib.Tactic.FieldSimp
import Mathlib.Tactic.Linarith
import Mathlib.Tactic.Positivity
import Mathlib.Tactic.Ring
import MarketReplay.Indicator.ExponentialMean
import MarketReplay.Proofs.Scalar

/-!
# Exponential means in closed form

The mean that forgets, without a recurrence (`forgettingMean`): the plain mean of the first values
and every later value, each with the weight that is left of it. The weights add up to one, which is
what `forgettingMean_const` says, and so the mean lies within the values it is taken of.

The program runs the recurrence. It follows any sequence that starts with the seed and takes the
same step (`exponentialMeans_eq_mapIdx`), and over the rationals the closed form is such a sequence
(`forgettingMean_seed`, `forgettingMean_succ`). **`exponentialMeans_closed`** puts the two together.
-/

set_option autoImplicit false

namespace MarketReplay

/-! ## The recurrence

What the program computes, for any scalar and without a closed form: a seed, a step, and a list that
is silent before the seed. Rounding numbers are covered, as long as the sequence takes the program's
own steps. -/

section recurrence

variable {α : Type} [Scalar α] {mean : Nat → α}

/-- The means along further values are those of any sequence that takes the same steps. The
induction is along the values, with the place of the first one moving. -/
theorem exponentialTail_eq_mapIdx {alpha : α} {values : List α} {seen : Nat}
    (hstep : ∀ i (h : i < values.length),
      mean (seen + i + 1) = alpha * values[i] + (1 - alpha) * mean (seen + i)) :
    exponentialTail alpha (mean seen) values =
      values.mapIdx fun i _ => some (mean (seen + i + 1)) := by
  induction values generalizing seen with
  | nil => rfl
  | cons v rest ih =>
    have hnext : alpha * v + (1 - alpha) * mean seen = mean (seen + 1) :=
      (hstep 0 (Nat.zero_lt_succ _)).symm
    have hrest : ∀ i (h : i < rest.length),
        mean (seen + 1 + i + 1) = alpha * rest[i] + (1 - alpha) * mean (seen + 1 + i) := by
      intro i h
      have := hstep (i + 1) (Nat.succ_lt_succ h)
      rwa [List.getElem_cons_succ, ← Nat.add_assoc, Nat.add_right_comm seen i 1] at this
    rw [exponentialTail, List.mapIdx_cons]
    simp only [hnext, ih hrest, Nat.add_zero, ← Nat.add_assoc, Nat.add_right_comm seen]

/-- **The exponential means follow the recurrence**: from the seed on they are those of any sequence
that starts with it and takes the same steps. A list that is too short has no seed, and then nothing
is asked of the sequence. -/
theorem exponentialMeans_eq_mapIdx {values : List α} {period : Nat} (hperiod : 0 < period)
    (hseed : period ≤ values.length →
      mean (period - 1) = Scalar.sum (values.take period) / Scalar.ofNat period)
    (hstep : ∀ i (h : i + 1 < values.length), period ≤ i + 1 →
      mean (i + 1) = smoothing period * values[i + 1] + (1 - smoothing period) * mean i) :
    exponentialMeans values period =
      values.mapIdx fun i _ => if i < period - 1 then none else some (mean i) := by
  unfold exponentialMeans
  split
  · rename_i hshort
    have hall : ∀ i < values.length, i < period - 1 := by omega
    refine List.ext_getElem (by rw [List.length_map, List.length_mapIdx]) ?_
    intro i hi _
    rw [List.length_map] at hi
    rw [List.getElem_map, List.getElem_mapIdx, if_pos (hall i hi)]
  · rename_i hlong
    obtain ⟨last, rfl⟩ : ∃ last, period = last + 1 := ⟨period - 1, by omega⟩
    have hsteps : ∀ i (h : i < (values.drop (last + 1)).length),
        mean (last + i + 1) = smoothing (last + 1) * (values.drop (last + 1))[i] +
          (1 - smoothing (last + 1)) * mean (last + i) := by
      intro i h
      rw [List.length_drop] at h
      have hplace : last + 1 + i = last + i + 1 := by omega
      simp only [List.getElem_drop, hplace]
      exact hstep (last + i) (by omega) (by omega)
    simp only [← hseed (by omega), Nat.add_sub_cancel]
    rw [exponentialTail_eq_mapIdx hsteps]
    refine List.ext_getElem ?_ ?_
    · simp only [List.length_append, List.length_replicate, List.length_cons, List.length_mapIdx,
        List.length_drop]
      omega
    · intro i hi _
      rw [List.getElem_mapIdx]
      -- before the seed, at the seed, and behind it
      rcases Nat.lt_trichotomy i last with hlt | rfl | hgt
      · rw [List.getElem_append_left (by rwa [List.length_replicate]), List.getElem_replicate,
          if_pos hlt]
      · simp only [List.getElem_append_right, List.length_replicate, Nat.le_refl, Nat.sub_self,
          List.getElem_cons_zero, Nat.lt_irrefl, if_false]
      · obtain ⟨j, rfl⟩ : ∃ j, i = last + (j + 1) := ⟨i - last - 1, by omega⟩
        have hplace : last + (j + 1) - last = j + 1 := by omega
        simp only [List.getElem_append_right, List.length_replicate, Nat.le_add_right, hplace,
          List.getElem_cons_succ, List.getElem_mapIdx, if_neg hgt.not_gt, Nat.add_assoc]

end recurrence

/-! ## The closed form

The mean as a weighted sum, over the rationals. That the weights are not negative and add up to one
is used for the bounds, and both are facts about the closed form alone. -/

/-- The weight of a new value, as a rational. For a period above zero it is one at most, with which
a mean stays between the values it is of. -/
def newWeight (period : Nat) : ℚ := 2 / (period + 1)

/-- The mean that forgets, at a place from the seed on: the plain mean of the first values, and each
later value, with what is left of their weights. -/
def forgettingMean (period : Nat) (x : Nat → ℚ) (i : Nat) : ℚ :=
  (1 - newWeight period) ^ (i + 1 - period) * ((∑ j ∈ Finset.range period, x j) / period) +
    ∑ j ∈ Finset.Icc period i, newWeight period * (1 - newWeight period) ^ (i - j) * x j

section closed

variable {period : Nat} (hperiod : 0 < period) (x : Nat → ℚ) {i : Nat}

theorem newWeight_nonneg : 0 ≤ newWeight period := by
  unfold newWeight
  positivity

include hperiod in
theorem newWeight_le_one : newWeight period ≤ 1 := by
  have hone : (1 : ℚ) ≤ period := Nat.one_le_cast.mpr hperiod
  rw [newWeight, div_le_one (by positivity)]
  linarith

include hperiod in
theorem forgettingMean_seed :
    forgettingMean period x (period - 1) = (∑ j ∈ Finset.range period, x j) / period := by
  have hnone : Finset.Icc period (period - 1) = ∅ := Finset.Icc_eq_empty (by omega)
  have hall : period - 1 + 1 - period = 0 := by omega
  rw [forgettingMean, hnone, hall, Finset.sum_empty, pow_zero, one_mul, add_zero]

/-- **A new value takes its weight, and what was there before keeps the rest.** -/
theorem forgettingMean_succ (hi : period ≤ i + 1) :
    forgettingMean period x (i + 1) =
      newWeight period * x (i + 1) + (1 - newWeight period) * forgettingMean period x i := by
  have hfirst : i + 1 + 1 - period = i + 1 - period + 1 := by omega
  have hlater : ∀ j ∈ Finset.Icc period i,
      newWeight period * (1 - newWeight period) ^ (i + 1 - j) * x j =
        (1 - newWeight period) * (newWeight period * (1 - newWeight period) ^ (i - j) * x j) := by
    intro j hj
    have hexponent : i + 1 - j = i - j + 1 := by
      have := (Finset.mem_Icc.mp hj).2
      omega
    rw [hexponent, pow_succ]
    ring
  rw [forgettingMean, forgettingMean, Finset.sum_Icc_succ_top hi, Finset.sum_congr rfl hlater,
    ← Finset.mul_sum, hfirst, Nat.sub_self, pow_succ, pow_zero]
  ring

include hperiod

/-- No weight is negative, so larger values have a larger mean. Bounds follow from this, with a
constant on one side. -/
theorem forgettingMean_mono {x y : Nat → ℚ} (hi : period ≤ i + 1) (h : ∀ j ≤ i, x j ≤ y j) :
    forgettingMean period x i ≤ forgettingMean period y i := by
  have hnew : 0 ≤ newWeight period := newWeight_nonneg
  have hrest : 0 ≤ 1 - newWeight period := sub_nonneg.mpr (newWeight_le_one hperiod)
  have hfirst : ∑ j ∈ Finset.range period, x j ≤ ∑ j ∈ Finset.range period, y j := by
    refine Finset.sum_le_sum ?_
    intro j hj
    exact h j (by have := Finset.mem_range.mp hj; omega)
  refine add_le_add (mul_le_mul_of_nonneg_left ?_ (pow_nonneg hrest _)) (Finset.sum_le_sum ?_)
  · exact div_le_div_of_nonneg_right hfirst (Nat.cast_nonneg period)
  · intro j hj
    exact mul_le_mul_of_nonneg_left (h j (Finset.mem_Icc.mp hj).2)
      (mul_nonneg hnew (pow_nonneg hrest _))

theorem forgettingMean_congr {x y : Nat → ℚ} (hi : period ≤ i + 1) (h : ∀ j ≤ i, x j = y j) :
    forgettingMean period x i = forgettingMean period y i :=
  le_antisymm (forgettingMean_mono hperiod hi fun j hj => (h j hj).le)
    (forgettingMean_mono hperiod hi fun j hj => (h j hj).ge)

/-- A change of scale and origin goes through the mean. A factor does because the mean is a sum, and
a constant because the weights add up to one. -/
theorem forgettingMean_affine (a b : ℚ) (hi : period ≤ i + 1) :
    forgettingMean period (fun j => a * x j + b) i = a * forgettingMean period x i + b := by
  have hne : (period : ℚ) ≠ 0 := Nat.cast_ne_zero.mpr hperiod.ne'
  have hfrom : period - 1 ≤ i := by omega
  induction i, hfrom using Nat.le_induction with
  | base =>
    rw [forgettingMean_seed hperiod, forgettingMean_seed hperiod, Finset.sum_add_distrib,
      ← Finset.mul_sum, Finset.sum_const, Finset.card_range, nsmul_eq_mul]
    field_simp
  | succ i hle ih =>
    rw [forgettingMean_succ _ (by omega), forgettingMean_succ _ (by omega), ih (by omega)]
    ring

/-- **The weights add up to one**: the mean of equal values is their value. -/
theorem forgettingMean_const (c : ℚ) (hi : period ≤ i + 1) :
    forgettingMean period (fun _ => c) i = c := by
  have haffine := forgettingMean_affine hperiod (fun _ => 0) 0 c hi
  simpa only [zero_mul, zero_add] using haffine

theorem forgettingMean_mem_bounds {lo hi : ℚ} (hi' : period ≤ i + 1)
    (h : ∀ j ≤ i, lo ≤ x j ∧ x j ≤ hi) :
    lo ≤ forgettingMean period x i ∧ forgettingMean period x i ≤ hi := by
  constructor
  · calc lo = forgettingMean period (fun _ => lo) i := (forgettingMean_const hperiod lo hi').symm
      _ ≤ forgettingMean period x i := forgettingMean_mono hperiod hi' fun j hj => (h j hj).1
  · calc forgettingMean period x i ≤ forgettingMean period (fun _ => hi) i :=
          forgettingMean_mono hperiod hi' fun j hj => (h j hj).2
      _ = hi := forgettingMean_const hperiod hi hi'

end closed

/-! ## The indicator

The closed form is a sequence that starts with the seed and takes the steps, so it is what the
program gets. -/

theorem sum_take_eq_sum_range {values : List ℚ} {n : Nat} (hn : n ≤ values.length) :
    (values.take n).sum = ∑ j ∈ Finset.range n, values.getD j 0 := by
  induction n with
  | zero => rfl
  | succ n ih =>
    rw [List.sum_take_succ values n hn, Finset.sum_range_succ, ih (Nat.le_of_succ_le hn),
      List.getD_eq_getElem values 0 hn]

section indicator

variable {period : Nat} (hperiod : 0 < period) (values : List ℚ)

include hperiod

theorem exponentialMeans_rat :
    exponentialMeans values period =
      values.mapIdx fun i _ =>
        if i < period - 1 then none else some (forgettingMean period (values.getD · 0) i) := by
  refine exponentialMeans_eq_mapIdx hperiod ?_ ?_
  · intro hlong
    rw [forgettingMean_seed hperiod, sum_rat, sum_take_eq_sum_range hlong]
    rfl
  · intro i hi hle
    rw [forgettingMean_succ _ hle, List.getD_eq_getElem values 0 hi]
    rfl

theorem getElem?_exponentialMeans (i : Nat) :
    (exponentialMeans values period)[i]? = values[i]?.map fun _ =>
      if i < period - 1 then none else some (forgettingMean period (values.getD · 0) i) := by
  rw [exponentialMeans_rat hperiod, List.getElem?_mapIdx]

/-- A mean that is there stands at a place from the seed on, and is the mean that forgets. Every
statement about single means of the list is reduced to the closed form by this. -/
theorem exists_of_getElem?_exponentialMeans {i : Nat} {m : ℚ}
    (hm : (exponentialMeans values period)[i]? = some (some m)) :
    i < values.length ∧ period ≤ i + 1 ∧ m = forgettingMean period (values.getD · 0) i := by
  rw [getElem?_exponentialMeans hperiod] at hm
  obtain ⟨v, hv, hmean⟩ := Option.map_eq_some_iff.mp hm
  obtain ⟨hi, -⟩ := List.getElem?_eq_some_iff.mp hv
  split at hmean
  · cases hmean
  · exact ⟨hi, by omega, (Option.some.inj hmean).symm⟩

theorem exponentialMeans_bounds {i : Nat} {m : ℚ}
    (hm : (exponentialMeans values period)[i]? = some (some m)) :
    ∃ lo hi, IsLeast {v | v ∈ values.take (i + 1)} lo ∧
      IsGreatest {v | v ∈ values.take (i + 1)} hi ∧ lo ≤ m ∧ m ≤ hi := by
  obtain ⟨hi, hle, rfl⟩ := exists_of_getElem?_exponentialMeans hperiod values hm
  have hnonempty : (values.take (i + 1)).toFinset.Nonempty := by
    rw [List.toFinset_nonempty_iff, ← List.length_pos_iff, List.length_take]
    omega
  have hleast := Finset.isLeast_min' _ hnonempty
  have hgreatest := Finset.isGreatest_max' _ hnonempty
  rw [List.coe_toFinset] at hleast hgreatest
  -- every value that the mean is made of is among those seen so far
  have hmem : ∀ j ≤ i, values.getD j 0 ∈ values.take (i + 1) := by
    intro j hj
    rw [List.getD_eq_getElem values 0 (by omega)]
    exact List.mem_take_iff_getElem.mpr ⟨j, by omega, rfl⟩
  refine ⟨_, _, hleast, hgreatest, forgettingMean_mem_bounds hperiod _ hle ?_⟩
  intro j hj
  exact ⟨hleast.2 (hmem j hj), hgreatest.2 (hmem j hj)⟩

end indicator

@[simp] theorem length_exponentialMeans (values : List ℚ) (period : Nat) :
    (exponentialMeans values period).length = values.length := by
  rcases Nat.eq_zero_or_pos period with rfl | hperiod
  · simp [exponentialMeans]
  · rw [exponentialMeans_rat hperiod, List.length_mapIdx]

theorem exponentialMeans_map_affine (values : List ℚ) (period : Nat) (a b : ℚ) :
    exponentialMeans (values.map (a * · + b)) period =
      (exponentialMeans values period).map (Option.map (a * · + b)) := by
  rcases Nat.eq_zero_or_pos period with rfl | hperiod
  · simp only [exponentialMeans, true_or, if_true, List.map_map]
    rfl
  refine List.ext_getElem? ?_
  intro i
  rw [getElem?_exponentialMeans hperiod, List.getElem?_map, List.getElem?_map,
    getElem?_exponentialMeans hperiod]
  rcases Nat.lt_or_ge i values.length with hi | hi
  · rw [List.getElem?_eq_getElem hi]
    simp only [Option.map_some]
    split
    · rfl
    · have hle : period ≤ i + 1 := by omega
      -- up to the place the values are there, so that no default stands in for one
      have hvalues : ∀ j ≤ i, (values.map (a * · + b)).getD j 0 = a * values.getD j 0 + b := by
        intro j hj
        rw [List.getD_eq_getElem _ _ (by rw [List.length_map]; omega), List.getElem_map,
          List.getD_eq_getElem _ _ (by omega)]
      rw [forgettingMean_congr hperiod hle hvalues, forgettingMean_affine hperiod _ a b hle,
        Option.map_some]
  · rw [List.getElem?_eq_none hi]
    rfl

/-- **The exponential mean in closed form**, over the rationals. The indicator is silent before the
seed, so everywhere on a list that is shorter than the period, and from there on it is the mean that
forgets. Each mean lies between the least and the greatest of the values so far, and a change of
scale and origin goes through. -/
theorem exponentialMeans_closed (values : List ℚ) {period : Nat} (hperiod : 1 ≤ period) :
    (exponentialMeans values period).length = values.length ∧
    (exponentialMeans values period =
      values.mapIdx fun i _ =>
        if i < period - 1 then none else some (forgettingMean period (values.getD · 0) i)) ∧
    (values.length < period → ∀ m ∈ exponentialMeans values period, m = none) ∧
    (∀ i m, (exponentialMeans values period)[i]? = some (some m) →
      ∃ lo hi, IsLeast {v | v ∈ values.take (i + 1)} lo ∧
        IsGreatest {v | v ∈ values.take (i + 1)} hi ∧ lo ≤ m ∧ m ≤ hi) ∧
    ∀ a b, exponentialMeans (values.map (a * · + b)) period =
      (exponentialMeans values period).map (Option.map (a * · + b)) := by
  refine ⟨length_exponentialMeans values period, exponentialMeans_rat hperiod values, ?_,
    fun _ _ => exponentialMeans_bounds hperiod values, exponentialMeans_map_affine values period⟩
  intro hshort m hm
  rw [exponentialMeans_rat hperiod, List.mem_mapIdx] at hm
  obtain ⟨i, hi, rfl⟩ := hm
  exact if_pos (by omega)

/-- Three values make the seed and two more enter; the same values upside down, on another scale. -/
theorem exponentialMeans_closed_sample :
    1 ≤ 3 ∧
      exponentialMeans ([3, 1, 5, -2, 7 / 2] : List ℚ) 3 =
        [none, none, some 3, some (1 / 2), some 2] ∧
      exponentialMeans ([-5, -1, -9, 5, -6] : List ℚ) 3 =
        [none, none, some (-5), some 0, some (-3)] := by
  have hperiod : 1 ≤ 3 := by decide
  obtain ⟨-, hclosed, -, -, haffine⟩ := exponentialMeans_closed [3, 1, 5, -2, 7 / 2] hperiod
  have hmeans : exponentialMeans ([3, 1, 5, -2, 7 / 2] : List ℚ) 3 =
      [none, none, some 3, some (1 / 2), some 2] :=
    hclosed.trans (by decide +kernel)
  have hscaled := haffine (-2) 1
  have hvalues : ([3, 1, 5, -2, 7 / 2] : List ℚ).map (-2 * · + 1) = [-5, -1, -9, 5, -6] := by
    decide +kernel
  rw [hmeans, hvalues] at hscaled
  exact ⟨hperiod, hmeans, hscaled.trans (by decide +kernel)⟩

end MarketReplay
