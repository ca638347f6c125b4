import Mathlib.Algebra.BigOperators.Intervals
import Mathlib.Algebra.BigOperators.Ring.Finset
import Mathlib.Algebra.Order.BigOperators.Group.Finset
import Mathlib.Data.List.GetD
import Mathlib.Tactic.FieldSimp
import Mathlib.Tactic.Linarith
import Mathlib.Tactic.Positivity
import Mathlib.Tactic.Ring
import MarketReplay.Proofs.Indicator.RelativeStrength
import MarketReplay.Proofs.Scalar

/-!
# Relative strength in closed form

Wilder's average without a recurrence (`wilderMean`): the mean of the first changes, as many as the
period says, and every later change, each with the weight that is left of it. The relative strength
is the share of the averaged gains in gains and losses together (`gainShare`).

**`relativeStrengths_closed`**: over the rationals the indicator is this share. The invariant of its
state is that of both averages (`RelativeStrength.averages_after`), which during the first period
are the part of the plain mean that was added up so far (`averageAt`). What a change of all prices
does to the strength can then be read off the gains and losses: negation exchanges them, a factor
goes through both averages, and a constant does not show in a change.
-/

set_option autoImplicit false

namespace MarketReplay

/-! ## The plain definition

The textbook's relative strength, with nothing of the program in it: gains and losses from the
prices, two weighted averages, and the share. The places are those of the prices, and the first
price has no change. -/

/-- What the price rose by at a place. At place zero the price before is the price itself, so that
nothing rises. -/
def gainAt (prices : List ℚ) (i : Nat) : ℚ := max (prices.getD i 0 - prices.getD (i - 1) 0) 0

/-- What the price fell by at a place. -/
def lossAt (prices : List ℚ) (i : Nat) : ℚ := max (prices.getD (i - 1) 0 - prices.getD i 0) 0

/-- Wilder's average at a place from the period on: the mean of the first values and each later one
with its weight. -/
def wilderMean (period : Nat) (x : Nat → ℚ) (i : Nat) : ℚ :=
  ((period - 1) / period) ^ (i - period) * (1 / period) * ∑ j ∈ Finset.Icc 1 period, x j +
    ∑ j ∈ Finset.Icc (period + 1) i, 1 / period * ((period - 1) / period) ^ (i - j) * x j

/-- The share of the gains, from 0 to 100, and 50 where nothing moved. The program computes it from
a ratio, which it has to keep from dividing by zero; here the sum is zero in that case alone. -/
def gainShare (gain loss : ℚ) : ℚ := if gain = 0 ∧ loss = 0 then 50 else 100 * gain / (gain + loss)

/-- The relative strength at a place, from the period on. It is told from the prices alone, by sums
and without a state. -/
def strengthAt (period : Nat) (prices : List ℚ) (i : Nat) : ℚ :=
  gainShare (wilderMean period (gainAt prices) i) (wilderMean period (lossAt prices) i)

/-! ## Averages

Wilder's average by its own rule. While the first period lasts the program adds the mean up part by
part, so what it has then is a part of the mean and not yet an average. -/

section average

variable {period : Nat} (hperiod : 0 < period) (x : Nat → ℚ)

/-- The first value after the period takes its part of the average. -/
theorem wilderMean_self :
    wilderMean period x period = (∑ j ∈ Finset.Icc 1 period, x j) / period := by
  have hnone : Finset.Icc (period + 1) period = ∅ := Finset.Icc_eq_empty (by omega)
  rw [wilderMean, hnone, Finset.sum_empty, Nat.sub_self, pow_zero]
  ring

/-- **Wilder's rule**: a value replaces one part of the average. -/
theorem wilderMean_succ {i : Nat} (hi : period ≤ i) :
    wilderMean period x (i + 1) =
      (period - 1) / period * wilderMean period x i + 1 / period * x (i + 1) := by
  have hfirst : i + 1 - period = i - period + 1 := by omega
  have hlater : ∀ j ∈ Finset.Icc (period + 1) i,
      1 / period * ((period - 1) / period : ℚ) ^ (i + 1 - j) * x j =
        (period - 1) / period * (1 / period * ((period - 1) / period) ^ (i - j) * x j) := by
    intro j hj
    have hle := (Finset.mem_Icc.mp hj).2
    have hexponent : i + 1 - j = i - j + 1 := by omega
    rw [hexponent, pow_succ]
    ring
  rw [wilderMean, wilderMean, Finset.sum_Icc_succ_top (by omega), Finset.sum_congr rfl hlater,
    ← Finset.mul_sum, hfirst, Nat.sub_self, pow_succ, pow_zero]
  ring

/-- What an average has come to at a place: up to the period the part of the mean that was added
up. -/
def averageAt (period : Nat) (x : Nat → ℚ) (i : Nat) : ℚ :=
  if i < period then (∑ j ∈ Finset.Icc 1 i, x j) / period else wilderMean period x i

/-- An average with one more value, before which some were seen. It is the program's step for either
of the two averages. -/
def averaged (period seen : Nat) (average value : ℚ) : ℚ :=
  if seen < period then average + value / period else (average * (period - 1) + value) / period

include hperiod in
theorem averageAt_succ (i : Nat) :
    averageAt period x (i + 1) = averaged period i (averageAt period x i) (x (i + 1)) := by
  have hne : (period : ℚ) ≠ 0 := Nat.cast_ne_zero.mpr hperiod.ne'
  by_cases hi : i < period
  · have hsum : (∑ j ∈ Finset.Icc 1 (i + 1), x j) / period =
        averageAt period x i + x (i + 1) / period := by
      rw [averageAt, if_pos hi, Finset.sum_Icc_succ_top (by omega), add_div]
    rw [averaged, if_pos hi, ← hsum, averageAt]
    split
    · rfl
    · -- the period is complete with this value
      have hlast : i + 1 = period := by omega
      rw [hlast, wilderMean_self]
  · rw [averaged, if_neg hi, averageAt, averageAt, if_neg hi, if_neg (by omega),
      wilderMean_succ x (by omega)]
    field_simp

theorem wilderMean_congr {x y : Nat → ℚ} {i : Nat} (hi : period ≤ i)
    (h : ∀ j, 1 ≤ j → j ≤ i → x j = y j) : wilderMean period x i = wilderMean period y i := by
  have hfirst : ∑ j ∈ Finset.Icc 1 period, x j = ∑ j ∈ Finset.Icc 1 period, y j := by
    refine Finset.sum_congr rfl ?_
    intro j hj
    obtain ⟨hpos, hle⟩ := Finset.mem_Icc.mp hj
    exact h j hpos (hle.trans hi)
  rw [wilderMean, wilderMean, hfirst]
  congr 1
  refine Finset.sum_congr rfl ?_
  intro j hj
  obtain ⟨hpos, hle⟩ := Finset.mem_Icc.mp hj
  rw [h j (by omega) hle]

theorem wilderMean_mul (a : ℚ) (i : Nat) :
    wilderMean period (fun j => a * x j) i = a * wilderMean period x i := by
  have hlater : ∀ j ∈ Finset.Icc (period + 1) i,
      1 / period * ((period - 1) / period : ℚ) ^ (i - j) * (a * x j) =
        a * (1 / period * ((period - 1) / period) ^ (i - j) * x j) :=
    fun j _ => mul_left_comm ..
  rw [wilderMean, wilderMean, ← Finset.mul_sum, Finset.sum_congr rfl hlater, ← Finset.mul_sum,
    mul_left_comm, mul_add]

include hperiod in
theorem wilderMean_nonneg (hx : ∀ j, 0 ≤ x j) (i : Nat) : 0 ≤ wilderMean period x i := by
  have hpos : (1 : ℚ) ≤ period := Nat.one_le_cast.mpr hperiod
  have hrest : (0 : ℚ) ≤ (period - 1) / period := div_nonneg (by linarith) (by linarith)
  have hpart : (0 : ℚ) ≤ 1 / period := by positivity
  rw [wilderMean]
  refine add_nonneg (mul_nonneg (mul_nonneg (pow_nonneg hrest _) hpart) ?_) ?_
  · exact Finset.sum_nonneg fun j _ => hx j
  · exact Finset.sum_nonneg fun j _ => mul_nonneg (mul_nonneg hpart (pow_nonneg hrest _)) (hx j)

end average

/-! ## The share of the gains

Facts about the share of two numbers that are not negative. Each is one about strengths, once the
averages are put in. -/

section share

variable {gain loss : ℚ} (hgain : 0 ≤ gain) (hloss : 0 ≤ loss)

include hgain hloss

theorem gainShare_mem : 0 ≤ gainShare gain loss ∧ gainShare gain loss ≤ 100 := by
  rw [gainShare]
  split
  · norm_num
  · refine ⟨by positivity, div_le_of_le_mul₀ (add_nonneg hgain hloss) (by norm_num) ?_⟩
    linarith

theorem gainShare_swap : gainShare loss gain = 100 - gainShare gain loss := by
  by_cases hnone : gain = 0 ∧ loss = 0
  · rw [gainShare, gainShare, if_pos hnone, if_pos hnone.symm]
    norm_num
  · have hsum : gain + loss ≠ 0 := fun h => hnone ((add_eq_zero_iff_of_nonneg hgain hloss).mp h)
    rw [gainShare, gainShare, if_neg hnone, if_neg (fun h => hnone h.symm), add_comm loss gain]
    field_simp
    ring

omit hgain hloss in
theorem gainShare_mul {a : ℚ} (ha : 0 < a) :
    gainShare (a * gain) (a * loss) = gainShare gain loss := by
  simp only [gainShare, mul_eq_zero, ha.ne', false_or]
  rw [← mul_add, mul_left_comm, mul_div_mul_left _ _ ha.ne']

end share

/-! ## A change of all prices

What happens to gains and losses when all prices change. A constant needs a place behind the first,
since it reads two prices. -/

section change

variable (prices : List ℚ) (i : Nat)

theorem gainAt_neg : gainAt (prices.map (-·)) i = lossAt prices i := by
  have hprice (j : Nat) : (prices.map (-·)).getD j 0 = -prices.getD j 0 := by
    rw [← List.getD_map (f := (-·)), neg_zero]
  rw [gainAt, lossAt, hprice, hprice, neg_sub_neg]

theorem lossAt_neg : lossAt (prices.map (-·)) i = gainAt prices i := by
  rw [← gainAt_neg, List.map_map]
  simp

theorem gainAt_mul {a : ℚ} (ha : 0 < a) : gainAt (prices.map (a * ·)) i = a * gainAt prices i := by
  have hprice (j : Nat) : (prices.map (a * ·)).getD j 0 = a * prices.getD j 0 := by
    rw [← List.getD_map (f := (a * ·)), mul_zero]
  rw [gainAt, gainAt, hprice, hprice, ← mul_sub, mul_max_of_nonneg _ _ ha.le, mul_zero]

theorem lossAt_mul {a : ℚ} (ha : 0 < a) : lossAt (prices.map (a * ·)) i = a * lossAt prices i := by
  have hswap : (-·) ∘ (a * ·) = (a * ·) ∘ (-· : ℚ → ℚ) := funext fun x => (mul_neg a x).symm
  rw [← gainAt_neg, List.map_map, hswap, ← List.map_map, gainAt_mul _ _ ha, gainAt_neg]

variable {i} (hpos : 1 ≤ i) (hi : i < prices.length) (c : ℚ)

include hpos hi

theorem gainAt_add : gainAt (prices.map (· + c)) i = gainAt prices i := by
  have hprice (j : Nat) (hj : j < prices.length) :
      (prices.map (· + c)).getD j 0 = prices.getD j 0 + c := by
    rw [List.getD_eq_getElem _ _ hj, List.getD_eq_getElem _ _ (by rwa [List.length_map]),
      List.getElem_map]
  rw [gainAt, gainAt, hprice i hi, hprice (i - 1) (by omega), add_sub_add_right_eq_sub]

theorem lossAt_add : lossAt (prices.map (· + c)) i = lossAt prices i := by
  have hswap : (-·) ∘ (· + c) = (· + -c) ∘ (-· : ℚ → ℚ) := funext fun x => neg_add x c
  rw [← gainAt_neg, List.map_map, hswap, ← List.map_map,
    gainAt_add _ hpos (by rwa [List.length_map]), gainAt_neg]

end change

section strengthAt

variable {period : Nat} (hperiod : 0 < period) (prices : List ℚ) {i : Nat}

include hperiod

theorem averages_nonneg (i : Nat) :
    0 ≤ wilderMean period (gainAt prices) i ∧ 0 ≤ wilderMean period (lossAt prices) i :=
  ⟨wilderMean_nonneg hperiod _ (fun _ => le_max_right ..) i,
    wilderMean_nonneg hperiod _ (fun _ => le_max_right ..) i⟩

theorem strengthAt_neg :
    strengthAt period (prices.map (-·)) i = 100 - strengthAt period prices i := by
  obtain ⟨hgain, hloss⟩ := averages_nonneg hperiod prices i
  rw [strengthAt, funext (gainAt_neg prices), funext (lossAt_neg prices),
    gainShare_swap hgain hloss, strengthAt]

omit hperiod in
theorem strengthAt_mul {a : ℚ} (ha : 0 < a) :
    strengthAt period (prices.map (a * ·)) i = strengthAt period prices i := by
  have hgain : gainAt (prices.map (a * ·)) = fun j => a * gainAt prices j :=
    funext fun j => gainAt_mul prices j ha
  have hloss : lossAt (prices.map (a * ·)) = fun j => a * lossAt prices j :=
    funext fun j => lossAt_mul prices j ha
  rw [strengthAt, hgain, hloss, wilderMean_mul, wilderMean_mul, gainShare_mul ha, strengthAt]

omit hperiod in
theorem strengthAt_add (hle : period ≤ i) (hi : i < prices.length) (c : ℚ) :
    strengthAt period (prices.map (· + c)) i = strengthAt period prices i := by
  rw [strengthAt, strengthAt,
    wilderMean_congr hle fun j hpos hj => gainAt_add prices hpos (hj.trans_lt hi) c,
    wilderMean_congr hle fun j hpos hj => lossAt_add prices hpos (hj.trans_lt hi) c]

end strengthAt

/-! ## The state of the indicator

The invariant ties the state to the plain definition, place by place. The bookkeeping comes from the
module on lists; only the averages are new. -/

namespace RelativeStrength

theorem averages_update {s : RelativeStrength ℚ} {before : ℚ} (h : s.previous = some before)
    (price : ℚ) :
    (s.update price).1.averageGain =
        averaged s.period s.changes s.averageGain (max (price - before) 0) ∧
      (s.update price).1.averageLoss =
        averaged s.period s.changes s.averageLoss (max (before - price) 0) := by
  have hzero : (Scalar.instNumeral 0 : OfNat ℚ 0).ofNat = 0 := rfl
  rw [fst_update_of_next h, afterChange, max_rat, max_rat, hzero, max_comm, max_comm 0, neg_sub,
    averaged, averaged]
  simp only []
  split <;> exact ⟨rfl, rfl⟩

variable {period : Nat} {prices : List ℚ}

/-- **The invariant**: at every place both averages are what they have come to there. The induction
is on the place: the state before it has seen as many changes as the place says, and takes one more
price. -/
theorem averages_after (hperiod : 0 < period) {i : Nat} (hi : i < prices.length) :
    ((start period).after (prices.take (i + 1))).averageGain =
        averageAt period (gainAt prices) i ∧
      ((start period).after (prices.take (i + 1))).averageLoss =
        averageAt period (lossAt prices) i := by
  induction i with
  | zero =>
    obtain ⟨first, rest, rfl⟩ := List.exists_cons_of_length_pos hi
    have hnone (x : Nat → ℚ) : averageAt period x 0 = 0 := by
      rw [averageAt, if_pos hperiod, Finset.Icc_eq_empty (by omega), Finset.sum_empty, zero_div]
    rw [hnone, hnone]
    exact ⟨rfl, rfl⟩
  | succ i ih =>
    obtain ⟨ihgain, ihloss⟩ := ih (by omega)
    have htake : prices.take (i + 1 + 1) = prices.take (i + 1) ++ [prices[i + 1]] := by
      rw [List.take_add_one, List.getElem?_eq_getElem hi]
      rfl
    have hcounts := Counts.after period (prices.take (i + 1))
    -- the state knows the last price, and how many changes it has seen
    have hprevious : ((start period).after (prices.take (i + 1))).previous = some prices[i] := by
      rw [hcounts.previous_eq, List.getLast?_take, if_neg (Nat.succ_ne_zero i), Nat.add_sub_cancel,
        List.getElem?_eq_getElem (Nat.lt_of_succ_lt hi), Option.some_or]
    have hchanges : ((start period).after (prices.take (i + 1))).changes = i := by
      rw [hcounts.changes_eq, List.length_take_of_le (by omega), Nat.add_sub_cancel]
    have hlimit : ((start period).after (prices.take (i + 1))).period = period :=
      hcounts.period_eq.trans (Nat.max_eq_left hperiod)
    have hnow : prices.getD (i + 1) 0 = prices[i + 1] := List.getD_eq_getElem _ _ hi
    have hbefore : prices.getD i 0 = prices[i] := List.getD_eq_getElem _ _ (Nat.lt_of_succ_lt hi)
    have hgain : gainAt prices (i + 1) = max (prices[i + 1] - prices[i]) 0 := by
      rw [gainAt, Nat.add_sub_cancel, hnow, hbefore]
    have hloss : lossAt prices (i + 1) = max (prices[i] - prices[i + 1]) 0 := by
      rw [lossAt, Nat.add_sub_cancel, hnow, hbefore]
    obtain ⟨hgains, hlosses⟩ := averages_update hprevious prices[i + 1]
    rw [htake, after_concat, hgains, hlosses, averageAt_succ hperiod, averageAt_succ hperiod, hgain,
      hloss, hlimit, hchanges, ihgain, ihloss]
    exact ⟨rfl, rfl⟩

/-- The indicator computes the share from the ratio of the averages. The three cases are its own:
nothing moved, nothing fell, and the ratio. -/
theorem strength_rat {gain loss : ℚ} (hgain : 0 ≤ gain) (hloss : 0 ≤ loss) :
    strength gain loss = gainShare gain loss := by
  have hratio : strength gain loss =
      if loss = 0 then if gain = 0 then 50 else 100 else 100 - 100 / (1 + gain / loss) := by
    simp only [strength, beq_iff_eq]
    rfl
  rw [hratio, gainShare]
  -- without losses the ratio has no value, and the two definitions agree case by case
  rcases hloss.eq_or_lt with rfl | hpos
  · by_cases hnone : gain = 0
    · rw [if_pos rfl, if_pos hnone, if_pos ⟨hnone, rfl⟩]
    · rw [if_pos rfl, if_neg hnone, if_neg (fun h => hnone h.1)]
      field_simp
      ring
  · have hsum : gain + loss ≠ 0 := by positivity
    rw [if_neg hpos.ne', if_neg (fun h => hpos.ne' h.2)]
    have hne : loss ≠ 0 := hpos.ne'
    field_simp
    ring

/-- From the period on the state stands for the share of the averaged gains. -/
theorem value_after (hperiod : 0 < period) {i : Nat} (hle : period ≤ i) (hi : i < prices.length) :
    ((start period).after (prices.take (i + 1))).value = strengthAt period prices i := by
  obtain ⟨hgains, hlosses⟩ := averages_after hperiod hi
  obtain ⟨hgain, hloss⟩ := averages_nonneg hperiod prices i
  rw [value, hgains, hlosses, averageAt, averageAt, if_neg hle.not_gt, if_neg hle.not_gt,
    strength_rat hgain hloss, strengthAt]

end RelativeStrength

section relativeStrengths

variable {period : Nat} (hperiod : 0 < period) (prices : List ℚ)

include hperiod

theorem getElem?_relativeStrengths_rat (i : Nat) :
    (relativeStrengths prices period)[i]? = prices[i]?.map fun _ =>
      if i < period then none else some (strengthAt period prices i) := by
  rw [getElem?_relativeStrengths hperiod]
  rcases Nat.lt_or_ge i prices.length with hi | hi
  · rw [List.getElem?_eq_getElem hi, Option.map_some, Option.map_some]
    split
    · rfl
    · rename_i hle
      rw [RelativeStrength.value_after hperiod (not_lt.mp hle) hi]
  · rw [List.getElem?_eq_none hi, Option.map_none, Option.map_none]

theorem relativeStrengths_eq_mapIdx :
    relativeStrengths prices period =
      prices.mapIdx fun i _ => if i < period then none else some (strengthAt period prices i) := by
  refine List.ext_getElem? ?_
  intro i
  rw [getElem?_relativeStrengths_rat hperiod, List.getElem?_mapIdx]

theorem relativeStrengths_bounds {v : ℚ} (hv : some v ∈ relativeStrengths prices period) :
    0 ≤ v ∧ v ≤ 100 := by
  rw [relativeStrengths_eq_mapIdx hperiod, List.mem_mapIdx] at hv
  obtain ⟨i, -, hstrength⟩ := hv
  split at hstrength
  · cases hstrength
  · obtain ⟨hgain, hloss⟩ := averages_nonneg hperiod prices i
    rw [← Option.some.inj hstrength]
    exact gainShare_mem hgain hloss

theorem relativeStrengths_map {f g : ℚ → ℚ}
    (h : ∀ i, period ≤ i → i < prices.length →
      strengthAt period (prices.map f) i = g (strengthAt period prices i)) :
    relativeStrengths (prices.map f) period =
      (relativeStrengths prices period).map (Option.map g) := by
  refine List.ext_getElem? ?_
  intro i
  rw [getElem?_relativeStrengths_rat hperiod, List.getElem?_map, List.getElem?_map,
    getElem?_relativeStrengths_rat hperiod]
  rcases Nat.lt_or_ge i prices.length with hi | hi
  · rw [List.getElem?_eq_getElem hi]
    simp only [Option.map_some]
    split
    · rfl
    · -- behind the warm-up, where the strengths themselves are compared
      rename_i hle
      rw [h i (not_lt.mp hle) hi, Option.map_some]
  · rw [List.getElem?_eq_none hi]
    rfl

end relativeStrengths

/-- **The relative strength in closed form**, over the rationals. The indicator is silent up to the
period and from there on the share of the averaged gains. Hence its values are within 0 and 100, to
negate all prices reflects them, and neither a positive factor nor a constant changes anything. -/
theorem relativeStrengths_closed (prices : List ℚ) {period : Nat} (hperiod : 1 ≤ period) :
    (relativeStrengths prices period =
      prices.mapIdx fun i _ => if i < period then none else some (strengthAt period prices i)) ∧
    (∀ v, some v ∈ relativeStrengths prices period → 0 ≤ v ∧ v ≤ 100) ∧
    relativeStrengths (prices.map (-·)) period =
      (relativeStrengths prices period).map (Option.map (100 - ·)) ∧
    (∀ a > 0, relativeStrengths (prices.map (a * ·)) period = relativeStrengths prices period) ∧
    ∀ c, relativeStrengths (prices.map (· + c)) period = relativeStrengths prices period := by
  refine ⟨relativeStrengths_eq_mapIdx hperiod prices,
    fun v => relativeStrengths_bounds hperiod prices,
    relativeStrengths_map hperiod prices fun i _ _ => strengthAt_neg hperiod prices, ?_, ?_⟩
  · intro a ha
    have hmap := relativeStrengths_map hperiod prices (f := (a * ·)) (g := id)
      fun i _ _ => strengthAt_mul prices ha
    rwa [Option.map_id, List.map_id] at hmap
  · intro c
    have hmap := relativeStrengths_map hperiod prices (f := (· + c)) (g := id)
      fun i hle hi => strengthAt_add prices hle hi c
    rwa [Option.map_id, List.map_id] at hmap

/-- Two rises and two falls, averaged over two changes, and the same as falls and rises. -/
theorem relativeStrengths_closed_sample :
    1 ≤ 2 ∧
      relativeStrengths ([10, 12, 13, 11, 10] : List ℚ) 2 =
        [none, none, some 100, some (300 / 7), some (300 / 11)] ∧
      relativeStrengths ([-10, -12, -13, -11, -10] : List ℚ) 2 =
        [none, none, some 0, some (400 / 7), some (800 / 11)] := by
  have hperiod : 1 ≤ 2 := by decide
  obtain ⟨hclosed, -, hnegated, -⟩ := relativeStrengths_closed [10, 12, 13, 11, 10] hperiod
  have hstrengths : relativeStrengths ([10, 12, 13, 11, 10] : List ℚ) 2 =
      [none, none, some 100, some (300 / 7), some (300 / 11)] :=
    hclosed.trans (by decide +kernel)
  rw [hstrengths] at hnegated
  exact ⟨hperiod, hstrengths, hnegated.trans (by decide +kernel)⟩

end MarketReplay
