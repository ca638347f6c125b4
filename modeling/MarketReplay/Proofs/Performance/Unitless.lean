import MarketReplay.Performance.Metrics
import MarketReplay.Proofs.Performance.Drawdown

/-!
# Metrics have no unit and no origin of time

The metrics of a curve are ratios of amounts of money and of intervals of time, and so they do not
say in which currency the money was counted, nor from which day the time
(**`analyze_rescaled`**). Returns are quotients of neighbouring values (`returns_map_mul`),
statistics of trades read how long a position was held and not when (`ofTrades_map_shifted`), and
what is worked out from the returns, whatever a root or a power may be, comes out the same because
the returns are the same.

The peak from which the first drawdown is taken is the lowest number of the format, which follows no
unit. As long as nothing above zero has been seen, both peaks are not above zero and there is no
drawdown; afterwards the one peak is the other one in its unit (`PeaksAgree`).
-/

set_option autoImplicit false

namespace MarketReplay

variable {a : ℚ}

/-! ## Amounts of money

Each number that is worked out of the curve, with all values multiplied. Where a value is compared,
it is with zero or with another value. -/

theorem returns_cons_cons_rat (first second : ℚ) (rest : List ℚ) :
    returns (first :: second :: rest) =
      (if 0 < first then second / first - 1 else 0) :: returns (second :: rest) := rfl

theorem returns_map_mul (ha : 0 < a) (equity : List ℚ) :
    returns (equity.map (a * ·)) = returns equity := by
  induction equity with
  | nil => rfl
  | cons first rest ih =>
    cases rest with
    | nil => rfl
    | cons second rest =>
      have hfirst : 0 < a * first ↔ 0 < first := mul_pos_iff_of_pos_left ha
      simp only [List.map_cons] at ih ⊢
      rw [returns_cons_cons_rat, returns_cons_cons_rat, ih, mul_div_mul_left _ _ ha.ne']
      simp only [hfirst]

theorem totalGrowth_rat (initialCapital finalEquity : ℚ) :
    Metrics.totalGrowth initialCapital finalEquity =
      if 0 < initialCapital then finalEquity / initialCapital - 1 else 0 := rfl

theorem totalGrowth_mul (ha : 0 < a) (initialCapital finalEquity : ℚ) :
    Metrics.totalGrowth (a * initialCapital) (a * finalEquity) =
      Metrics.totalGrowth initialCapital finalEquity := by
  have hcapital : 0 < a * initialCapital ↔ 0 < initialCapital := mul_pos_iff_of_pos_left ha
  rw [totalGrowth_rat, totalGrowth_rat, mul_div_mul_left _ _ ha.ne']
  simp only [hcapital]

/-- Two peaks stand for the same one in two units, or neither of them is above zero. Below zero they
need not correspond, as the drawdown is zero there. -/
def PeaksAgree (a peak peak' : ℚ) : Prop := peak' = a * peak ∨ peak ≤ 0 ∧ peak' ≤ 0

theorem PeaksAgree.drawdown_eq {peak peak' : ℚ} (h : PeaksAgree a peak peak') (ha : 0 < a)
    (equity : ℚ) : drawdown peak' (a * equity) = drawdown peak equity := by
  rcases h with rfl | ⟨hpeak, hpeak'⟩
  · exact drawdown_mul ha peak equity
  · rw [drawdown_rat, drawdown_rat, if_neg hpeak.not_gt, if_neg hpeak'.not_gt]

theorem PeaksAgree.max {peak peak' : ℚ} (h : PeaksAgree a peak peak') (ha : 0 < a) (equity : ℚ) :
    PeaksAgree a (Scalar.max peak equity) (Scalar.max peak' (a * equity)) := by
  rw [max_rat, max_rat]
  rcases h with rfl | ⟨hpeak, hpeak'⟩
  · exact .inl (mul_max_of_nonneg _ _ ha.le).symm
  · rcases le_or_gt equity 0 with hequity | hequity
    · have hequity' := mul_nonpos_of_nonneg_of_nonpos ha.le hequity
      exact .inr ⟨max_le hpeak hequity, max_le hpeak' hequity'⟩
    · -- the first value above zero is the peak in both units
      left
      rw [max_eq_right (hpeak.trans hequity.le),
        max_eq_right (hpeak'.trans (mul_pos ha hequity).le)]

theorem drawdownsAfter_map_mul {peak peak' : ℚ} (h : PeaksAgree a peak peak') (ha : 0 < a)
    (equity : List ℚ) :
    drawdownsAfter peak' (equity.map (a * ·)) = drawdownsAfter peak equity := by
  induction equity generalizing peak peak' with
  | nil => rfl
  | cons first rest ih =>
    have hmax := h.max ha first
    simp only [List.map_cons, drawdownsAfter, hmax.drawdown_eq ha, ih hmax]

theorem maxDrawdown_map_mul (ha : 0 < a) (equity : List ℚ) :
    maxDrawdown (equity.map (a * ·)) = maxDrawdown equity := by
  have hlowest : PeaksAgree a lowestPeak lowestPeak := .inr ⟨lowestPeak_neg.le, lowestPeak_neg.le⟩
  rw [maxDrawdown, maxDrawdown, drawdowns, drawdowns, drawdownsAfter_map_mul hlowest ha]

/-! ## Times

Only differences of times are read: between neighbouring points, and between the entry and the exit
of a trade. -/

theorem steps_map_add (d : ℤ) (timestamps : List ℤ) :
    steps (timestamps.map (· + d)) = steps timestamps := by
  fun_induction steps timestamps with
  | case1 => rfl
  | case2 => rfl
  | case3 first second rest ih =>
    simp only [List.map_cons] at ih ⊢
    simp only [steps, ih, add_sub_add_right_eq_sub]

theorem periodsPerYear_map_add (d : ℤ) (timestamps : List ℤ) :
    (periodsPerYear (timestamps.map (· + d)) : ℚ) = periodsPerYear timestamps := by
  rw [periodsPerYear, periodsPerYear, medianInterval?, medianInterval?, steps_map_add]

/-- The trade by a clock that is set forward. The time it was held does not change, whether or not
it is over. -/
def Trade.shifted {α : Type} (d : ℤ) (t : Trade α) : Trade α :=
  { t with entryTimestamp := t.entryTimestamp + d, exitTimestamp := t.exitTimestamp.map (· + d) }

section trades

variable {α : Type} (d : ℤ)

theorem Trade.isClosed_shifted (t : Trade α) : (t.shifted d).isClosed = t.isClosed :=
  Option.isSome_map

theorem Trade.holdingMillis?_shifted (t : Trade α) :
    (t.shifted d).holdingMillis? = t.holdingMillis? := by
  unfold Trade.holdingMillis? Trade.shifted
  cases t.exitTimestamp with
  | none => rfl
  | some exit => exact congrArg some (add_sub_add_right_eq_sub ..)

theorem ofTrades_map_shifted [Scalar α] (trades : List (Trade α)) :
    TradeStatistics.ofTrades (trades.map (Trade.shifted d)) = TradeStatistics.ofTrades trades := by
  have hclosed : (trades.map (Trade.shifted d)).filter Trade.isClosed =
      (trades.filter Trade.isClosed).map (Trade.shifted d) := by
    rw [List.filter_map]
    exact congrArg _ (List.filter_congr fun t _ => t.isClosed_shifted d)
  have hadd : ∀ (tally : TradeStatistics.Tally α) (t : Trade α),
      tally.add (t.shifted d) = tally.add t := by
    intro tally t
    rw [TradeStatistics.Tally.add, Trade.holdingMillis?_shifted]
    rfl
  unfold TradeStatistics.ofTrades
  simp only [hclosed, List.foldl_map, hadd]

end trades

/-! ## Metrics

All of it together. The roots and powers are parameters and get the same arguments on both sides. -/

namespace Metrics

section rescaled

variable [RootPower ℚ]

theorem ofCurve_rescaled (ha : 0 < a) (d : ℤ) (equity : List ℚ) (finalEquity : ℚ)
    (timestamps : List ℤ) (first last : ℤ) (trades : List (Trade ℚ)) (initialCapital : ℚ) :
    ofCurve (equity.map (a * ·)) (a * finalEquity) (timestamps.map (· + d)) (first + d) (last + d)
        (trades.map (Trade.shifted d)) (a * initialCapital) =
      ofCurve equity finalEquity timestamps first last trades initialCapital := by
  have hyears (closed : ℕ) :
      (yearlyTrades closed (first + d) (last + d) : ℚ) = yearlyTrades closed first last := by
    rw [yearlyTrades, yearlyTrades, add_sub_add_right_eq_sub]
  unfold ofCurve
  simp only [returns_map_mul ha, totalGrowth_mul ha, maxDrawdown_map_mul ha,
    periodsPerYear_map_add, ofTrades_map_shifted, hyears]

/-- **Metrics have no unit and no origin of time.** All values of the curve and the initial capital
are multiplied by one factor above zero, and all timestamps of the curve and of the trades are moved
by one distance; whatever the points say about their own times and drawdowns, the metrics are the
same, over the rationals and for any roots and powers. The profits of the trades stay as they are,
because wins and losses are told apart by a fixed amount. -/
theorem analyze_rescaled (a : ℚ) (ha : 0 < a) (d : ℤ) (curve curve' : List (EquityPoint ℚ))
    (timestamps : List ℤ) (trades : List (Trade ℚ)) (initialCapital : ℚ)
    (hcurve : curve'.map EquityPoint.equity = curve.map fun point => a * point.equity) :
    analyze curve' (timestamps.map (· + d)) (trades.map (Trade.shifted d)) (a * initialCapital) =
      analyze curve timestamps trades initialCapital := by
  have hequity : curve'.map EquityPoint.equity = (curve.map EquityPoint.equity).map (a * ·) := by
    rw [hcurve, List.map_map]
    rfl
  unfold analyze
  simp only [hequity]
  generalize curve.map EquityPoint.equity = equity
  simp only [List.getLast?_map, List.head?_map, List.length_map]
  cases equity.getLast? <;> cases timestamps.head? <;> cases timestamps.getLast? <;>
    simp only [Option.map_none, Option.map_some, ofCurve_rescaled ha]

end rescaled

/-- A curve that starts in debt, rises to eight, and is at nothing for a while. -/
def indebtedCurve : List (EquityPoint ℚ) :=
  [-2, 4, 0, 8, 6].map fun value => ⟨0, value, 0⟩

/-- The same in another currency, by points that say other things about themselves. -/
def indebtedCurve' : List (EquityPoint ℚ) :=
  [-6, 12, 0, 24, 18].map fun value => ⟨17, value, 1 / 3⟩

def indebtedTimes : List ℤ := [0, 10, 20, 40, 50]

/-- A trade that lost, and one that is still open. -/
def indebtedTrades : List (Trade ℚ) :=
  [⟨10, some 20, .buy, 4, some 2, 1, 0, -2⟩, ⟨40, none, .buy, 8, none, 1, 0, 0⟩]

/-- In three times the unit and by a clock that was set back, the loss of everything is still one
drawdown of one, the lost trade was held for as long, and the capital has tripled. -/
theorem analyze_rescaled_sample :
    letI := RootPower.standIns
    let before := analyze indebtedCurve indebtedTimes indebtedTrades 2
    let after := analyze indebtedCurve' (indebtedTimes.map (· + -100))
      (indebtedTrades.map (Trade.shifted (-100))) (3 * 2)
    (0 : ℚ) < 3 ∧
      (indebtedCurve'.map EquityPoint.equity =
        indebtedCurve.map fun point => 3 * point.equity) ∧
      after = before ∧ after.maxDrawdown = 1 ∧ after.averageHolding = 10 ∧
      after.cumulativeReturn = 2 := by
  let roots := RootPower.standIns
  have hcurve : indebtedCurve'.map EquityPoint.equity =
      indebtedCurve.map fun point => 3 * point.equity := by decide +kernel
  have hsame := analyze_rescaled 3 (by norm_num) (-100) indebtedCurve indebtedCurve' indebtedTimes
    indebtedTrades 2 hcurve
  have hdrawdown : (analyze indebtedCurve indebtedTimes indebtedTrades 2).maxDrawdown = 1 := by
    decide +kernel
  have hholding : (analyze indebtedCurve indebtedTimes indebtedTrades 2).averageHolding = 10 := by
    decide +kernel
  have hreturn : (analyze indebtedCurve indebtedTimes indebtedTrades 2).cumulativeReturn = 2 := by
    decide +kernel
  refine ⟨by norm_num, hcurve, hsame, ?_, ?_, ?_⟩
  · rw [hsame, hdrawdown]
  · rw [hsame, hholding]
  · rw [hsame, hreturn]

end Metrics

end MarketReplay
