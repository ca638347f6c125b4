import MarketReplay.Proofs.Double.Arithmetic
import MarketReplay.Proofs.Double.Swamped
import MarketReplay.Proofs.Performance.Agreement
import MarketReplay.Proofs.Performance.Words

/-!
# Which metrics are finite

Metrics are worked out of doubles that may be anything: infinite, `NaN`, or so large that a
difference of two of them is infinite. Most results are held within the finite numbers when they
are done, and of the others the mean holding time and the rate of wins cannot overflow
(`TradeStatistics.isFinite_ofTrades`).

The largest drawdown is not held within anything. **It is the only metric that can be infinite**
(`finite_but_drawdown`), and it is infinite when an equity below zero is so far below a small peak
that the fraction overflows (`drawdown_overflows`). Where no equity is below zero, no drawdown is
more than one, whatever else is in the curve.
-/

set_option autoImplicit false

namespace MarketReplay

/-! ## Drawdowns

When a drawdown is one at most, for doubles of any kind. A `NaN` in the curve gives no drawdown, and
neither does a peak that is infinite. -/

section drawdown

variable {peak equity : Float} {curve : List Float}

theorem isFinite_zero : Scalar.isFinite (0 : Float) = true := by decide +kernel

theorem isFinite_one : Scalar.isFinite (1 : Float) = true := by decide +kernel

theorem value_one : Double.value 1 = 1 := by decide +kernel

theorem zero_le_one_double : (0 : Float) ≤ 1 := by decide +kernel

theorem isFinite_of_le {x y : Float} (hzero : 0 ≤ x) (hle : x ≤ y)
    (hy : Scalar.isFinite y = true) : Scalar.isFinite x = true :=
  Double.isFinite_of_within (Double.le_trans (Double.within_largest isFinite_zero).1 hzero)
    (Double.le_trans hle (Double.within_largest hy).2)

theorem fraction_le_one (hpeak : Scalar.isFinite peak = true) (hpos : 0 < peak)
    (hzero : 0 ≤ equity) (hle : equity ≤ peak) : (peak - equity) / peak ≤ 1 := by
  have hequity := isFinite_of_le hzero hle hpeak
  have hvaluePos : 0 < Double.value peak := Double.value_lt isFinite_zero hpeak hpos
  have hvalueNonneg : 0 ≤ Double.value equity :=
    (Double.le_iff_value_le isFinite_zero hequity).mp hzero
  have hvalueLe : Double.value equity ≤ Double.value peak :=
    (Double.le_iff_value_le hequity hpeak).mp hle
  -- neither the difference nor the quotient is rounded beyond its bound
  have hloss : |Double.value peak - Double.value equity| ≤ |Double.value peak| := by
    rw [abs_of_nonneg (sub_nonneg.mpr hvalueLe), abs_of_pos hvaluePos]
    linarith
  obtain ⟨hlossFinite, hlossLe⟩ := (Double.rounds_sub hpeak hequity).abs_le hpeak hloss
  have hfraction : |Double.value (peak - equity) / Double.value peak| ≤ |Double.value 1| := by
    rw [value_one, abs_one, abs_div]
    exact div_le_one_of_le₀ hlossLe (abs_nonneg _)
  obtain ⟨hfractionFinite, hfractionLe⟩ :=
    (Double.rounds_div hlossFinite hpeak hvaluePos.ne').abs_le isFinite_one hfraction
  rw [value_one, abs_one] at hfractionLe
  rw [Double.le_iff_value_le hfractionFinite isFinite_one, value_one]
  exact (le_abs_self _).trans hfractionLe

/-- By an equity that is `NaN` no fraction is lost, and of a peak that is infinite none either. -/
theorem isNaN_fraction (h : Scalar.isNaN equity = true ∨
    peak.toModel.unpack = .infinity .positive) : Scalar.isNaN ((peak - equity) / peak) = true := by
  rcases h with hequity | hpeak
  · exact Double.isNaN_div (Double.isNaN_sub_of_isNaN peak hequity) peak
  · exact (Double.Swamped.sub (.inl hpeak) equity).isNaN_div hpeak

/-- **A drawdown is one at most** where the equity is not below zero. -/
theorem drawdown_le_one (hle : Scalar.isNaN equity = true ∨ equity ≤ peak)
    (hequity : ¬equity < 0) : drawdown peak equity ≤ 1 := by
  rw [drawdown_eq]
  split
  case isFalse => exact zero_le_one_double
  rename_i hpos
  split
  case isFalse => exact zero_le_one_double
  rename_i hfraction
  -- a fraction is lost, so the equity is a number and the peak is finite
  have hnumber : ¬(Scalar.isNaN equity = true ∨ peak.toModel.unpack = .infinity .positive) :=
    fun h => Double.not_lt_of_isNaN (isNaN_fraction h) hfraction
  obtain ⟨hequityNumber, hpeakFinite⟩ := not_or.mp hnumber
  have hpeak : Scalar.isFinite peak = true := by
    by_contra hinfinite
    exact hpeakFinite
      (Double.unpack_of_infinite (Double.le_of_lt hpos) (Bool.eq_false_iff.mpr hinfinite))
  have hzero : 0 ≤ equity :=
    (Double.lt_or_le (Bool.eq_false_iff.mpr hequityNumber) isNaN_zero).resolve_left hequity
  exact fraction_le_one hpeak hpos hzero (hle.resolve_left hequityNumber)

/-- What is seen is no more than the peak it makes, or it is `NaN` and makes none. -/
theorem le_max_peak (hpeak : Scalar.isNaN peak = false) (equity : Float) :
    Scalar.isNaN (Scalar.max peak equity) = false ∧
      (Scalar.isNaN equity = true ∨ equity ≤ Scalar.max peak equity) := by
  cases hequity : Scalar.isNaN equity with
  | true =>
    refine ⟨?_, .inl rfl⟩
    unfold Scalar.max
    rw [hpeak, if_neg Bool.false_ne_true]
    split
    · rename_i hlt
      exact (Double.isNaN_of_lt hlt).2
    · exact hpeak
  | false =>
    rcases Double.max_cases hpeak hequity with ⟨hmax, hle⟩ | ⟨hmax, hle⟩ <;> rw [hmax]
    · exact ⟨hequity, .inr (Double.le_self hequity)⟩
    · exact ⟨hpeak, .inr hle⟩

theorem drawdownsAfter_le_one (hpeak : Scalar.isNaN peak = false)
    (hcurve : ∀ equity ∈ curve, ¬equity < 0) : ∀ x ∈ drawdownsAfter peak curve, x ≤ 1 := by
  induction curve generalizing peak with
  | nil => simp [drawdownsAfter]
  | cons equity rest ih =>
    obtain ⟨hequity, hrest⟩ := List.forall_mem_cons.mp hcurve
    obtain ⟨hnext, hle⟩ := le_max_peak hpeak equity
    exact List.forall_mem_cons.mpr ⟨drawdown_le_one hle hequity, ih hnext hrest⟩

theorem maxDrawdown_isLargest (curve : List Float) :
    IsLargest (maxDrawdown curve) (drawdowns curve) :=
  isLargest_foldl_max fun _ => drawdownsAfter_cases

theorem maxDrawdown_le_one (hcurve : ∀ equity ∈ curve, ¬equity < 0) : maxDrawdown curve ≤ 1 := by
  have hlargest := maxDrawdown_isLargest curve
  by_cases hnil : drawdowns curve = []
  · rw [hlargest.zero hnil]
    exact zero_le_one_double
  · exact drawdownsAfter_le_one (by decide +kernel) hcurve _ (hlargest.mem hnil)

theorem maxDrawdown_zero_or_pos (curve : List Float) :
    maxDrawdown curve = 0 ∨ 0 < maxDrawdown curve := by
  have hlargest := maxDrawdown_isLargest curve
  by_cases hnil : drawdowns curve = []
  · exact .inl (hlargest.zero hnil)
  · exact drawdownsAfter_cases (hlargest.mem hnil)

theorem isFinite_maxDrawdown_iff (curve : List Float) :
    Scalar.isFinite (maxDrawdown curve) = true ↔
      ∀ x ∈ drawdowns curve, Scalar.isFinite x = true := by
  have hlargest := maxDrawdown_isLargest curve
  constructor
  · intro hfinite x hx
    have hzero : 0 ≤ x := by
      rcases drawdownsAfter_cases hx with rfl | hpos
      · exact Double.le_self isNaN_zero
      · exact Double.le_of_lt hpos
    exact isFinite_of_le hzero (hlargest.le x hx) hfinite
  · intro hall
    by_cases hnil : drawdowns curve = []
    · rw [hlargest.zero hnil]
      exact isFinite_zero
    · exact hall _ (hlargest.mem hnil)

end drawdown

/-! ## Statistics

The numbers that nothing holds within bounds. A count is an exact double, and a share of a finite
number by a count is no larger than the number. -/

section statistics

variable {t : TradeStatistics.Tally Float} {closed : List (Trade Float)}

theorem HeldWithin.natAbs_le {trade : Trade Float} (h : HeldWithin trade) :
    (trade.holdingMillis?.getD 0).natAbs ≤ 2 ^ 63 := by
  cases hheld : trade.holdingMillis? with
  | none => exact Nat.zero_le _
  | some held =>
    obtain ⟨hlow, hhigh⟩ := h held hheld
    have hlow : -(2 ^ 63 : ℤ) ≤ held := hlow
    have hhigh : held ≤ (2 ^ 63 : ℤ) - 1 := hhigh
    show held.natAbs ≤ 2 ^ 63
    omega

/-- **The sum of the times held stays where it is when it is large**: beyond a power of two, a time
of 64 bits is less than half a unit. So the sum cannot overflow, however many trades there are. -/
theorem isFinite_totalHolding (hclosed : ∀ trade ∈ closed, HeldWithin trade)
    (ht : Scalar.isFinite t.totalHolding = true ∧ |Double.value t.totalHolding| ≤ 2 ^ 118) :
    let total := (closed.foldl TradeStatistics.Tally.add t).totalHolding
    Scalar.isFinite total = true ∧ |Double.value total| ≤ 2 ^ 118 := by
  induction closed generalizing t with
  | nil => exact ht
  | cons trade closed ih =>
    obtain ⟨htrade, hclosed⟩ := List.forall_mem_cons.mp hclosed
    refine ih hclosed ?_
    rw [TradeStatistics.Tally.totalHolding_add]
    obtain ⟨hheld, hheldLe⟩ := Double.ofInt_within htrade.natAbs_le
    refine (Double.rounds_add ht.1 hheld).le_two_pow (k := 66) (by norm_num) ?_
    calc |Double.value t.totalHolding + Double.value (Scalar.ofInt (trade.holdingMillis?.getD 0))|
        ≤ 2 ^ 118 + 2 ^ 63 := (abs_add_le _ _).trans (add_le_add ht.2 hheldLe)
      _ < 2 ^ (66 + 52) + 2 ^ 66 / 2 := by norm_num

theorem isFinite_share {total : Float} {d : ℕ} (htotal : Scalar.isFinite total = true)
    (hpos : d ≠ 0) (hd : d < 2 ^ 53) : Scalar.isFinite (total / Scalar.ofNat d) = true := by
  have hdvalue := Double.value_ofNat hd
  have hdone : (1 : ℚ) ≤ d := by exact_mod_cast Nat.one_le_iff_ne_zero.mpr hpos
  have hdne : Double.value (Scalar.ofNat d : Float) ≠ 0 := by
    rw [hdvalue]
    exact (zero_lt_one.trans_le hdone).ne'
  refine ((Double.rounds_div htotal (Double.isFinite_ofNat hd) hdne).abs_le htotal ?_).1
  rw [hdvalue, abs_div, Nat.abs_cast]
  exact div_le_self (abs_nonneg _) hdone

/-- **What is said of trades is finite**, whatever they made or lost. -/
theorem TradeStatistics.isFinite_ofTrades {trades : List (Trade Float)}
    (hcount : (trades.filter Trade.isClosed).length < 2 ^ 53)
    (hheld : ∀ trade ∈ trades, HeldWithin trade) :
    Scalar.isFinite (ofTrades trades).winRate = true ∧
      Scalar.isFinite (ofTrades trades).profitLossRatio = true ∧
      Scalar.isFinite (ofTrades trades).averageHolding = true := by
  obtain ⟨hclosed, hwinning, -⟩ := counts_ofTrades trades
  have htotal := @isFinite_totalHolding Tally.zero (trades.filter Trade.isClosed)
    (fun trade htrade => hheld trade (List.mem_filter.mp htrade).1)
    (by constructor <;> decide +kernel)
  have hrate : (ofTrades trades).winRate = if (ofTrades trades).closed = 0 then 0
      else Scalar.ofNat (ofTrades trades).winning / Scalar.ofNat (ofTrades trades).closed := rfl
  have hmean : (ofTrades trades).averageHolding = if (ofTrades trades).closed = 0 then 0
      else ((trades.filter Trade.isClosed).foldl Tally.add Tally.zero).totalHolding /
        Scalar.ofNat (ofTrades trades).closed := rfl
  rw [hrate, hmean]
  refine ⟨?_, ?_, ?_⟩
  · split
    · exact isFinite_zero
    · rename_i hne
      -- the wins are among the trades, which are few enough to be exact
      have hwinners : (ofTrades trades).winning < 2 ^ 53 :=
        hwinning ▸ List.countP_le_length.trans_lt hcount
      exact isFinite_share (Double.isFinite_ofNat hwinners) hne (hclosed ▸ hcount)
  · show Scalar.isFinite (Tally.profitLossRatio _) = true
    unfold Tally.profitLossRatio
    split
    · exact isFinite_zero
    · split
      · exact Double.isFinite_largest.1
      · exact Double.isFinite_bounded _
  · split
    · exact isFinite_zero
    · rename_i hne
      exact isFinite_share htotal.1 hne (hclosed ▸ hcount)

end statistics

/-! ## Metrics

Every field in turn. Those that are held within the finite numbers need nothing about what they are
worked out of. -/

theorem isFinite_boundedRatio (numerator denominator : Float) :
    Scalar.isFinite (boundedRatio numerator denominator) = true := by
  unfold boundedRatio
  split
  · exact isFinite_zero
  · exact Double.isFinite_bounded _

theorem isFinite_annualizedReturn [RootPower Float] (cumulative periodsPerYear : Float)
    (periods : ℕ) :
    Scalar.isFinite (annualizedReturn cumulative periodsPerYear periods) = true := by
  unfold annualizedReturn
  split
  · exact isFinite_zero
  · dsimp only
    split
    · decide +kernel
    · exact Double.isFinite_bounded _

namespace Metrics

/-- All numbers but the largest drawdown are finite. That one is left out because there are curves
on which it is not. -/
structure FiniteButDrawdown (m : Metrics Float) : Prop where
  cumulativeReturn : Scalar.isFinite m.cumulativeReturn = true
  annualizedReturn : Scalar.isFinite m.annualizedReturn = true
  periodsPerYear : Scalar.isFinite m.periodsPerYear = true
  volatility : Scalar.isFinite m.volatility = true
  downsideDeviation : Scalar.isFinite m.downsideDeviation = true
  sharpeRatio : Scalar.isFinite m.sharpeRatio = true
  sortinoRatio : Scalar.isFinite m.sortinoRatio = true
  calmarRatio : Scalar.isFinite m.calmarRatio = true
  winRate : Scalar.isFinite m.winRate = true
  profitLossRatio : Scalar.isFinite m.profitLossRatio = true
  averageHolding : Scalar.isFinite m.averageHolding = true
  tradesPerYear : Scalar.isFinite m.tradesPerYear = true

theorem finiteButDrawdown_zero : (zero : Metrics Float).FiniteButDrawdown := by
  constructor <;> exact isFinite_zero

section finite

variable [RootPower Float]

theorem finiteButDrawdown_ofCurve {trades : List (Trade Float)}
    (hcount : (trades.filter Trade.isClosed).length < 2 ^ 53)
    (hheld : ∀ trade ∈ trades, HeldWithin trade) (equity : List Float) (finalEquity : Float)
    (timestamps : List ℤ) (first last : ℤ) (initialCapital : Float) :
    (ofCurve equity finalEquity timestamps first last trades initialCapital).FiniteButDrawdown := by
  obtain ⟨hrate, hratio, hholding⟩ := TradeStatistics.isFinite_ofTrades hcount hheld
  constructor
  case cumulativeReturn => exact Double.isFinite_bounded _
  case annualizedReturn => exact isFinite_annualizedReturn _ _ _
  case periodsPerYear => exact Double.isFinite_bounded _
  case volatility => exact Double.isFinite_bounded _
  case downsideDeviation => exact Double.isFinite_bounded _
  case sharpeRatio => exact isFinite_boundedRatio _ _
  case sortinoRatio => exact isFinite_boundedRatio _ _
  case calmarRatio => exact isFinite_boundedRatio _ _
  -- these are held within nothing, but they cannot overflow
  case winRate => exact hrate
  case profitLossRatio => exact hratio
  case averageHolding => exact hholding
  case tradesPerYear =>
    show Scalar.isFinite (yearlyTrades _ first last) = true
    unfold yearlyTrades
    dsimp only
    split
    · exact Double.isFinite_bounded _
    · exact isFinite_zero

/-- A curve is refused, or it has the metrics that are worked out of it. -/
theorem analyze_cases (curve : List (EquityPoint Float)) (timestamps : List ℤ)
    (trades : List (Trade Float)) (initialCapital : Float) :
    analyze curve timestamps trades initialCapital = zero ∧
        (timestamps.length = curve.length → curve = []) ∨
      ∃ finalEquity first last, analyze curve timestamps trades initialCapital =
        ofCurve (curve.map EquityPoint.equity) finalEquity timestamps first last trades
          initialCapital := by
  by_cases hcurve : curve = []
  · subst hcurve
    exact .inl ⟨rfl, fun _ => rfl⟩
  by_cases hlength : timestamps.length = curve.length
  · obtain ⟨finalEquity, first, last, -, hmetrics⟩ := analyze_of_curve hcurve hlength
    exact .inr ⟨finalEquity, first, last, hmetrics trades initialCapital⟩
  · -- a curve whose timestamps do not match is refused, whether it has points or not
    refine .inl ⟨?_, fun h => absurd h hlength⟩
    unfold analyze
    dsimp only
    split
    · exact if_neg fun h => hlength (h.symm.trans (List.length_map _))
    · rfl

/-- **Only the largest drawdown can be infinite**, for every curve and log, whatever doubles are in
them, and for any roots and powers. Closed trades are counted without rounding, and the times they
were held have 64 bits. The largest drawdown is zero or above zero, so it is not `NaN` either; it is
finite exactly if the drawdowns of the curve are, and one at most if no equity is below zero. -/
theorem finite_but_drawdown (curve : List (EquityPoint Float)) (timestamps : List ℤ)
    (trades : List (Trade Float)) (initialCapital : Float)
    (hcount : (trades.filter Trade.isClosed).length < 2 ^ 53)
    (hheld : ∀ trade ∈ trades, HeldWithin trade) :
    let m := analyze curve timestamps trades initialCapital
    m.FiniteButDrawdown ∧
      (m.maxDrawdown = 0 ∨ 0 < m.maxDrawdown) ∧
      (timestamps.length = curve.length →
        (Scalar.isFinite m.maxDrawdown = true ↔
          ∀ x ∈ drawdowns (curve.map EquityPoint.equity), Scalar.isFinite x = true)) ∧
      ((∀ point ∈ curve, ¬point.equity < 0) → m.maxDrawdown ≤ 1) := by
  rcases analyze_cases curve timestamps trades initialCapital with
    ⟨hzero, hempty⟩ | ⟨finalEquity, first, last, hmetrics⟩
  · simp only [hzero]
    refine ⟨finiteButDrawdown_zero, .inl rfl, ?_, fun _ => zero_le_one_double⟩
    intro hlength
    -- a curve that is refused although its timestamps match has no points
    rw [hempty hlength]
    exact iff_of_true isFinite_zero (List.forall_mem_nil _)
  · simp only [hmetrics]
    refine ⟨finiteButDrawdown_ofCurve hcount hheld .., ?_, fun _ => isFinite_maxDrawdown_iff _, ?_⟩
    · exact maxDrawdown_zero_or_pos _
    · intro hequity
      exact maxDrawdown_le_one (List.forall_mem_map.mpr hequity)

end finite

/-- A curve that rises to next to nothing and then falls far into debt. -/
def ruinousCurve : List (EquityPoint Float) := [⟨0, 1e-10, 0⟩, ⟨0, -1e300, 0⟩]

/-- **The largest drawdown of a finite curve overflows.** -/
theorem drawdown_overflows :
    (∀ point ∈ ruinousCurve, Scalar.isFinite point.equity = true) ∧
      Scalar.isFinite (analyze ruinousCurve [0, 0] [] 1).maxDrawdown = false := by
  decide +kernel

/-- A trade held for as long as 64 bits can say, and one that is open. -/
def longTrades : List (Trade Float) :=
  [⟨0, some 9223372036854775807, .buy, 1, some 2, 1, 0, 1⟩, ⟨0, none, .buy, 1, none, 1, 0, 0⟩]

/-- With it and an infinite capital, all the other numbers are finite still. -/
theorem finite_but_drawdown_ruinous :
    (longTrades.filter Trade.isClosed).length < 2 ^ 53 ∧
      (∀ trade ∈ longTrades, HeldWithin trade) ∧
      (analyze ruinousCurve [0, 0] longTrades (1 / 0)).FiniteButDrawdown ∧
      ¬∀ x ∈ drawdowns (ruinousCurve.map EquityPoint.equity), Scalar.isFinite x = true := by
  have hcount : (longTrades.filter Trade.isClosed).length < 2 ^ 53 := by decide
  have hheld : ∀ trade ∈ longTrades, HeldWithin trade := by
    unfold HeldWithin
    decide +kernel
  obtain ⟨hfinite, -, hiff, -⟩ :=
    finite_but_drawdown ruinousCurve [0, 0] longTrades (1 / 0) hcount hheld
  refine ⟨hcount, hheld, hfinite, fun hall => ?_⟩
  have hdrawdown : Scalar.isFinite
      (analyze ruinousCurve [0, 0] longTrades (1 / 0)).maxDrawdown = false := by decide +kernel
  exact Bool.eq_false_iff.mp hdrawdown ((hiff rfl).mpr hall)

end Metrics

end MarketReplay
