import Mathlib.Algebra.Order.Field.Basic
import Mathlib.Data.Set.Lattice
import Mathlib.Tactic.Linarith
import MarketReplay.Performance.Drawdown
import MarketReplay.Proofs.Scalar

/-!
# Drawdown as a loss

A drawdown looks at the highest value so far and at nothing else. Said without a peak that is
carried along, it is about pairs: a loss at a place of a curve (`lossesAt`) is what is lost there of
a value above zero that was seen there or before, as a fraction of that value.

**`maxDrawdown_isWorst`**: over the rationals and for values that are not negative, the drawdown at
a place is the worst loss there, and the largest drawdown of a curve is its worst loss. Of all the
values before, the highest one loses the largest fraction (`loss_mono`); that is the whole of it,
and it fails for values below zero. A curve that never got above zero has no losses, and its
drawdowns are zero.
-/

set_option autoImplicit false

namespace MarketReplay

/-! ## Along a curve

For numbers of any kind: the drawdown at a place depends on the values up to it, and the peak that
is carried along is their maximum. -/

section curve

variable {α : Type} [Scalar α]

theorem drawdownsAfter_append (peak : α) (first second : List α) :
    drawdownsAfter peak (first ++ second) =
      drawdownsAfter peak first ++ drawdownsAfter (first.foldl Scalar.max peak) second := by
  induction first generalizing peak with
  | nil => rfl
  | cons equity rest ih =>
    simp only [List.cons_append, drawdownsAfter, List.foldl_cons, ih]

theorem getElem?_drawdownsAfter (peak : α) (curve : List α) (t : Nat) :
    (drawdownsAfter peak curve)[t]? = curve[t]?.map fun equity =>
      drawdown ((curve.take (t + 1)).foldl Scalar.max peak) equity := by
  induction curve generalizing peak t with
  | nil => rfl
  | cons first rest ih =>
    cases t with
    | zero => rfl
    | succ t => exact ih (Scalar.max peak first) t

theorem length_drawdownsAfter (peak : α) (curve : List α) :
    (drawdownsAfter peak curve).length = curve.length := by
  induction curve generalizing peak with
  | nil => rfl
  | cons first rest ih => exact congrArg Nat.succ (ih (Scalar.max peak first))

end curve

/-! ## Without rounding

What a drawdown and a maximum are over the rationals, with the operations of the field. -/

theorem drawdown_rat (peak equity : ℚ) :
    drawdown peak equity = if 0 < peak then max 0 ((peak - equity) / peak) else 0 := by
  rw [drawdown, max_rat]
  rfl

theorem drawdown_nonneg (peak equity : ℚ) : 0 ≤ drawdown peak equity := by
  rw [drawdown_rat]
  split
  · exact le_max_left ..
  · exact le_rfl

theorem drawdown_of_pos {peak equity : ℚ} (hequity : 0 < equity) (hpeak : equity ≤ peak) :
    0 ≤ drawdown peak equity ∧ drawdown peak equity < 1 := by
  have hpos : 0 < peak := lt_of_lt_of_le hequity hpeak
  refine ⟨drawdown_nonneg .., ?_⟩
  rw [drawdown_rat, if_pos hpos]
  refine max_lt one_pos ?_
  rw [div_lt_one hpos]
  linarith

theorem drawdown_mul {a : ℚ} (ha : 0 < a) (peak equity : ℚ) :
    drawdown (a * peak) (a * equity) = drawdown peak equity := by
  have hpeak : 0 < a * peak ↔ 0 < peak := mul_pos_iff_of_pos_left ha
  rw [drawdown_rat, drawdown_rat, ← mul_sub, mul_div_mul_left _ _ ha.ne']
  simp only [hpeak]

theorem lowestPeak_neg : (lowestPeak : ℚ) < 0 := by
  decide +kernel

theorem isGreatest_foldl_max (x : ℚ) (xs : List ℚ) :
    IsGreatest {y | y ∈ x :: xs} (xs.foldl Scalar.max x) := by
  induction xs generalizing x with
  | nil =>
    refine ⟨List.mem_singleton_self x, ?_⟩
    intro y hy
    exact (List.mem_singleton.mp hy).le
  | cons y ys ih =>
    -- the first two values are one, their maximum, for the rest of the list
    obtain ⟨hmem, hbound⟩ := ih (max x y)
    rw [List.foldl_cons, max_rat]
    constructor
    · rcases List.mem_cons.mp hmem with hmax | hlater
      · rw [hmax]
        rcases max_choice x y with h | h <;> rw [h] <;> simp
      · exact List.mem_cons_of_mem x (List.mem_cons_of_mem y hlater)
    · intro z hz
      have hle : max x y ≤ ys.foldl Scalar.max (max x y) := hbound List.mem_cons_self
      rcases List.mem_cons.mp hz with rfl | hz
      · exact (le_max_left ..).trans hle
      · rcases List.mem_cons.mp hz with rfl | hz
        · exact (le_max_right ..).trans hle
        · exact hbound (List.mem_cons_of_mem _ hz)

theorem isGreatest_maxDrawdown (equity : List ℚ) :
    IsGreatest {d | d ∈ 0 :: drawdowns equity} (maxDrawdown equity) :=
  isGreatest_foldl_max 0 (drawdowns equity)

theorem maxDrawdown_nonneg (equity : List ℚ) : 0 ≤ maxDrawdown equity :=
  (isGreatest_maxDrawdown equity).2 List.mem_cons_self

theorem drawdowns_nonneg {equity : List ℚ} {d : ℚ} (hd : d ∈ drawdowns equity) : 0 ≤ d := by
  obtain ⟨t, ht⟩ := List.mem_iff_getElem?.mp hd
  rw [drawdowns, getElem?_drawdownsAfter, Option.map_eq_some_iff] at ht
  obtain ⟨low, -, rfl⟩ := ht
  exact drawdown_nonneg ..

theorem isGreatest_peak {equity : List ℚ} (hequity : ∀ e ∈ equity, 0 ≤ e) (hne : equity ≠ []) :
    IsGreatest {e | e ∈ equity} (equity.foldl Scalar.max lowestPeak) := by
  obtain ⟨hmem, hbound⟩ := isGreatest_foldl_max lowestPeak equity
  refine ⟨?_, fun e he => hbound (List.mem_cons_of_mem _ he)⟩
  rcases List.mem_cons.mp hmem with hlowest | hseen
  · obtain ⟨e, he⟩ := List.exists_mem_of_ne_nil equity hne
    have hle : e ≤ equity.foldl Scalar.max lowestPeak := hbound (List.mem_cons_of_mem _ he)
    rw [hlowest] at hle
    exact absurd (hequity e he) (not_le.mpr (hle.trans_lt lowestPeak_neg))
  · exact hseen

/-! ## Losses

The statement, and its proof. A set of losses may be empty, so the worst one is said to be zero
then. -/

/-- The losses at a place of a curve, from values above zero that were seen there or before. The
place itself counts among those seen, and loses nothing of itself. -/
def lossesAt (equity : List ℚ) (t : Nat) : Set ℚ :=
  {loss | ∃ s high low, s ≤ t ∧ equity[s]? = some high ∧ equity[t]? = some low ∧ 0 < high ∧
    loss = (high - low) / high}

/-- All losses of a curve: of every pair of a value and one before it, whatever lies between. -/
def losses (equity : List ℚ) : Set ℚ := ⋃ t, lossesAt equity t

/-- The number is the largest of some losses, and zero if there are none. It is attained: some pair
of points has lost as much. -/
structure IsWorst (losses : Set ℚ) (x : ℚ) : Prop where
  greatest : losses.Nonempty → IsGreatest losses x
  zero : losses = ∅ → x = 0

/-- From a higher value more is lost, if what is left is not below zero. For what is left below zero
it is the other way round, and the peak would not give the worst loss. -/
theorem loss_mono {high higher low : ℚ} (hhigh : 0 < high) (hle : high ≤ higher) (hlow : 0 ≤ low) :
    (high - low) / high ≤ (higher - low) / higher := by
  have hhigher : 0 < higher := hhigh.trans_le hle
  have hrest : low / higher ≤ low / high := div_le_div_of_nonneg_left hlow hhigh hle
  rw [sub_div, sub_div, div_self hhigh.ne', div_self hhigher.ne']
  linarith

section

variable {equity : List ℚ} (hequity : ∀ e ∈ equity, 0 ≤ e)

include hequity

theorem loss_le_one {loss : ℚ} (h : loss ∈ losses equity) : loss ≤ 1 := by
  obtain ⟨t, s, high, low, -, -, hlow, hhigh, rfl⟩ := Set.mem_iUnion.mp h
  have hnonneg := hequity low (List.mem_of_getElem? hlow)
  rw [div_le_one hhigh]
  linarith

/-- The peak at a place is the highest of the values seen by then, and one of them. That it is one
of them uses that no value lies below the peak the search begins with. -/
theorem exists_peak {t : Nat} {low : ℚ} (hlow : equity[t]? = some low) :
    ∃ peak, (drawdowns equity)[t]? = some (drawdown peak low) ∧
      (∃ s ≤ t, equity[s]? = some peak) ∧
      ∀ s high, s ≤ t → equity[s]? = some high → high ≤ peak := by
  -- the peak is taken over the values up to the place, which are those of the curve there
  have htake : ∀ {s}, s ≤ t → (equity.take (t + 1))[s]? = equity[s]? :=
    fun hs => List.getElem?_take_of_lt (Nat.lt_succ_of_le hs)
  have hne : equity.take (t + 1) ≠ [] :=
    List.ne_nil_of_mem (List.mem_of_getElem? ((htake le_rfl).trans hlow))
  obtain ⟨hmem, hbound⟩ :=
    isGreatest_peak (fun e he => hequity e (List.mem_of_mem_take he)) hne
  refine ⟨(equity.take (t + 1)).foldl Scalar.max lowestPeak, ?_, ?_, ?_⟩
  · rw [drawdowns, getElem?_drawdownsAfter, hlow]
    rfl
  · obtain ⟨s, hs⟩ := List.mem_iff_getElem?.mp hmem
    have hlt := (List.getElem?_eq_some_iff.mp hs).1
    rw [List.length_take] at hlt
    have hst : s ≤ t := by omega
    exact ⟨s, hst, (htake hst).symm.trans hs⟩
  · intro s high hs hhigh
    exact hbound (List.mem_of_getElem? ((htake hs).trans hhigh))

/-- **The drawdown at a place is the worst loss there.** The peak gives a loss if it is above zero,
and no other value gives a larger one; if it is not above zero, no value is. -/
theorem isWorst_drawdown {t : Nat} {d : ℚ} (hd : (drawdowns equity)[t]? = some d) :
    IsWorst (lossesAt equity t) d := by
  obtain ⟨low, hlow⟩ : ∃ low, equity[t]? = some low := by
    rw [drawdowns, getElem?_drawdownsAfter, Option.map_eq_some_iff] at hd
    exact hd.imp fun _ => And.left
  obtain ⟨peak, hpeak, ⟨s, hs, hseen⟩, hhighest⟩ := exists_peak hequity hlow
  obtain rfl := Option.some.inj (hpeak.symm.trans hd)
  rw [drawdown_rat]
  by_cases hpos : 0 < peak
  · have hfraction : 0 ≤ (peak - low) / peak :=
      div_nonneg (sub_nonneg.mpr (hhighest t low le_rfl hlow)) hpos.le
    have hmem : (peak - low) / peak ∈ lossesAt equity t :=
      ⟨s, peak, low, hs, hseen, hlow, hpos, rfl⟩
    rw [if_pos hpos, max_eq_right hfraction]
    refine ⟨fun _ => ⟨hmem, ?_⟩, fun hnone => absurd (hnone ▸ hmem) (Set.notMem_empty _)⟩
    rintro loss ⟨s', high, low', hs', hhigh, hlow', hhighpos, rfl⟩
    obtain rfl := Option.some.inj (hlow.symm.trans hlow')
    exact loss_mono hhighpos (hhighest s' high hs' hhigh)
      (hequity low (List.mem_of_getElem? hlow))
  · -- nothing seen so far is above zero
    rw [if_neg hpos]
    refine ⟨?_, fun _ => rfl⟩
    rintro ⟨loss, s', high, low', hs', hhigh, -, hhighpos, -⟩
    exact absurd (hhighpos.trans_le (hhighest s' high hs' hhigh)) hpos

theorem exists_drawdown {t : Nat} {loss : ℚ} (h : loss ∈ lossesAt equity t) :
    ∃ d ∈ drawdowns equity, IsGreatest (lossesAt equity t) d := by
  have hsome : (lossesAt equity t).Nonempty := ⟨loss, h⟩
  obtain ⟨s, high, low, -, -, hlow, -, -⟩ := h
  obtain ⟨peak, hd, -, -⟩ := exists_peak hequity hlow
  exact ⟨_, List.mem_of_getElem? hd, (isWorst_drawdown hequity hd).greatest hsome⟩

theorem maxDrawdown_cases : maxDrawdown equity = 0 ∨ maxDrawdown equity ∈ losses equity := by
  rcases List.mem_cons.mp (isGreatest_maxDrawdown equity).1 with hzero | hmem
  · exact .inl hzero
  · obtain ⟨t, ht⟩ := List.mem_iff_getElem?.mp hmem
    have hworst := isWorst_drawdown hequity ht
    rcases (lossesAt equity t).eq_empty_or_nonempty with hnone | hsome
    · exact .inl (hworst.zero hnone)
    · exact .inr (Set.mem_iUnion.mpr ⟨t, (hworst.greatest hsome).1⟩)

/-- **The largest drawdown is the worst loss.** -/
theorem isWorst_maxDrawdown : IsWorst (losses equity) (maxDrawdown equity) := by
  have hbound := (isGreatest_maxDrawdown equity).2
  constructor
  case greatest =>
    rintro ⟨loss, hloss⟩
    obtain ⟨t, hat⟩ := Set.mem_iUnion.mp hloss
    obtain ⟨d, hd, hgreatest⟩ := exists_drawdown hequity hat
    constructor
    · rcases maxDrawdown_cases hequity with hzero | hmem
      · -- then the drawdown at the place of this loss is zero as well, and it is a loss
        have hle : d ≤ maxDrawdown equity := hbound (List.mem_cons_of_mem 0 hd)
        rw [hzero] at hle ⊢
        rw [← le_antisymm hle (drawdowns_nonneg hd)]
        exact Set.mem_iUnion.mpr ⟨t, hgreatest.1⟩
      · exact hmem
    · intro loss' hloss'
      obtain ⟨t', hat'⟩ := Set.mem_iUnion.mp hloss'
      obtain ⟨d', hd', hgreatest'⟩ := exists_drawdown hequity hat'
      exact (hgreatest'.2 hat').trans (hbound (List.mem_cons_of_mem 0 hd'))
  case zero =>
    intro hnone
    rcases maxDrawdown_cases hequity with hzero | hmem
    · exact hzero
    · exact absurd (hnone ▸ hmem) (Set.notMem_empty _)

theorem maxDrawdown_eq_zero_iff : maxDrawdown equity = 0 ↔ equity.Pairwise (· ≤ ·) := by
  have hworst := isWorst_maxDrawdown hequity
  rw [List.pairwise_iff_getElem]
  constructor
  · intro hzero s t hs ht hst
    rcases (hequity _ (List.getElem_mem hs)).eq_or_lt with hflat | hpos
    · rw [← hflat]
      exact hequity _ (List.getElem_mem ht)
    · -- the fall is a loss, of a value above zero as a fall from zero is excluded
      have hmem : (equity[s] - equity[t]) / equity[s] ∈ losses equity := Set.mem_iUnion.mpr
        ⟨t, s, _, _, hst.le, List.getElem?_eq_getElem hs, List.getElem?_eq_getElem ht, hpos, rfl⟩
      have hle := (hworst.greatest ⟨_, hmem⟩).2 hmem
      rw [hzero, div_le_iff₀ hpos, zero_mul] at hle
      exact sub_nonpos.mp hle
  · intro hrising
    rcases (losses equity).eq_empty_or_nonempty with hnone | hsome
    · exact hworst.zero hnone
    · obtain ⟨t, s, high, low, hst, hhigh, hlow, hpos, hloss⟩ :=
        Set.mem_iUnion.mp (hworst.greatest hsome).1
      obtain ⟨hs, rfl⟩ := List.getElem?_eq_some_iff.mp hhigh
      obtain ⟨ht, rfl⟩ := List.getElem?_eq_some_iff.mp hlow
      -- the worst loss is one along a rise, and so it is none
      have hle : equity[s] ≤ equity[t] := by
        rcases hst.eq_or_lt with rfl | hlt
        · exact le_rfl
        · exact hrising s t hs ht hlt
      refine le_antisymm ?_ (maxDrawdown_nonneg equity)
      rw [hloss, div_le_iff₀ hpos, zero_mul]
      exact sub_nonpos.mpr hle

end

theorem maxDrawdown_le_append (equity more : List ℚ) :
    maxDrawdown equity ≤ maxDrawdown (equity ++ more) := by
  rw [maxDrawdown, maxDrawdown, drawdowns, drawdowns, drawdownsAfter_append, List.foldl_append]
  exact (isGreatest_foldl_max _ _).2 List.mem_cons_self

/-- **Drawdowns are losses.** For values that are not negative the largest drawdown is the worst
loss from a value above zero to the same or a later one, and the drawdown at a place is the worst
loss there. Hence the largest drawdown is a fraction, does not fall when values are appended, and is
zero exactly if the values never fall. -/
theorem maxDrawdown_isWorst (equity : List ℚ) (hequity : ∀ e ∈ equity, 0 ≤ e) :
    IsWorst (losses equity) (maxDrawdown equity) ∧
      (drawdowns equity).length = equity.length ∧
      (∀ t d, (drawdowns equity)[t]? = some d → IsWorst (lossesAt equity t) d) ∧
      (0 ≤ maxDrawdown equity ∧ maxDrawdown equity ≤ 1) ∧
      (∀ more, maxDrawdown equity ≤ maxDrawdown (equity ++ more)) ∧
      (maxDrawdown equity = 0 ↔ equity.Pairwise (· ≤ ·)) := by
  have hworst := isWorst_maxDrawdown hequity
  refine ⟨hworst, length_drawdownsAfter .., fun t d hd => isWorst_drawdown hequity hd,
    ⟨maxDrawdown_nonneg equity, ?_⟩, maxDrawdown_le_append equity, maxDrawdown_eq_zero_iff hequity⟩
  rcases (losses equity).eq_empty_or_nonempty with hnone | hsome
  · rw [hworst.zero hnone]
    exact zero_le_one
  · exact loss_le_one hequity (hworst.greatest hsome).1

/-- A curve that starts at nothing, loses half of a first peak and three quarters of a second. -/
def sampleCurve : List ℚ := [0, 4, 2, 8, 2, 6]

/-- The worst loss of the sample curve is that from its second peak, and its last value is still a
quarter below it. Before the first peak there is nothing to lose. -/
theorem maxDrawdown_isWorst_sample :
    (∀ e ∈ sampleCurve, 0 ≤ e) ∧ IsGreatest (losses sampleCurve) (3 / 4) ∧
      IsGreatest (lossesAt sampleCurve 5) (1 / 4) ∧
      drawdowns sampleCurve = [0, 0, 1 / 2, 0, 3 / 4, 1 / 4] := by
  have hnonneg : ∀ e ∈ sampleCurve, 0 ≤ e := by decide +kernel
  obtain ⟨hworst, -, hat, -, -, -⟩ := maxDrawdown_isWorst sampleCurve hnonneg
  have hdrawdowns : drawdowns sampleCurve = [0, 0, 1 / 2, 0, 3 / 4, 1 / 4] := by decide +kernel
  have hmax : maxDrawdown sampleCurve = 3 / 4 := by decide +kernel
  -- the last value is two below the second peak of eight
  have hloss : (8 - 6) / 8 ∈ lossesAt sampleCurve 5 :=
    ⟨3, 8, 6, by decide, rfl, rfl, by norm_num, rfl⟩
  refine ⟨hnonneg, ?_, ?_, hdrawdowns⟩
  · rw [← hmax]
    exact hworst.greatest ⟨_, Set.mem_iUnion.mpr ⟨5, hloss⟩⟩
  · exact (hat 5 (1 / 4) (by rw [hdrawdowns]; rfl)).greatest ⟨_, hloss⟩

end MarketReplay
