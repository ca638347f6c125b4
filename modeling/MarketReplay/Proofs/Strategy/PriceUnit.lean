import Mathlib.Algebra.BigOperators.Ring.List
import Mathlib.Algebra.Order.BigOperators.Group.List
import Mathlib.Tactic.FieldSimp
import Mathlib.Tactic.Linarith
import Mathlib.Tactic.Positivity
import MarketReplay.Proofs.Scalar
import MarketReplay.Proofs.Strategy.Crossing

/-!
# Crossings in another unit of price

When every price of a series is multiplied by one factor above zero, so are both means and the
distance between them. The tolerance for rounding is a billionth of the larger mean, which goes
along, but never less than a billionth of one, which does not. **So the rule answers to prices in
another unit as it would in the first unit with another floor than one**
(`AverageCross.signals_repriced`).

A floor makes a difference at the bars where it hides that the means are apart
(`AverageCross.FloorHides`). At prices of a billionth and below it hides everything, and the rule
holds throughout, whatever the prices do.

The floor is made a parameter here, so that the rule with its floor of one is one of a family, and a
change of unit is a move within it. That the family's member at one is the rule is proved first.
-/

set_option autoImplicit false

namespace MarketReplay

/-- The bar with its prices in another unit. The volumes stay as they are, since no rule looks at
them. -/
def Bar.repriced (b : ℚ) (bar : Bar ℚ) : Bar ℚ :=
  { bar with
    opening := b * bar.opening
    high := b * bar.high
    low := b * bar.low
    closing := b * bar.closing }

@[simp] theorem Bar.closing_repriced (b : ℚ) (bar : Bar ℚ) :
    (bar.repriced b).closing = b * bar.closing := rfl

theorem closing_map_repriced (b : ℚ) (bars : List (Bar ℚ)) :
    (bars.map (Bar.repriced b)).map Bar.closing = (bars.map Bar.closing).map (b * ·) := by
  rw [List.map_map, List.map_map]
  rfl

/-! ## Means

A mean goes along with its values, and lies between bounds of theirs. -/

theorem lastMean_map_mul (b : ℚ) (period : Nat) (values : List ℚ) :
    lastMean period (values.map (b * ·)) = b * lastMean period values := by
  have hlast : (values.map (b * ·)).rtake period = (values.rtake period).map (b * ·) := by
    rw [List.rtake, List.rtake, List.length_map, List.map_drop]
  rw [lastMean, lastMean, hlast, List.sum_map_mul_left, List.map_id', mul_div_assoc]

theorem lastMean_mem_bounds {bound : ℚ} {values : List ℚ} (period : Nat)
    (hvalues : ∀ x ∈ values, 0 ≤ x ∧ x ≤ bound) (hbound : 0 ≤ bound) :
    0 ≤ lastMean period values ∧ lastMean period values ≤ bound := by
  have hmem : ∀ x ∈ values.rtake period, 0 ≤ x ∧ x ≤ bound :=
    fun x hx => hvalues x (List.mem_of_mem_drop hx)
  -- a mean over fewer values than the period is divided by the period all the same
  have hlength : ((values.rtake period).length : ℚ) ≤ period := by
    have : (values.rtake period).length ≤ period := by
      rw [RollingWindow.length_rtake]
      omega
    exact_mod_cast this
  constructor
  · exact div_nonneg (List.sum_nonneg fun x hx => (hmem x hx).1) (Nat.cast_nonneg period)
  · refine div_le_of_le_mul₀ (Nat.cast_nonneg period) hbound ?_
    calc (values.rtake period).sum
        ≤ (values.rtake period).length • bound :=
          List.sum_le_card_nsmul _ _ fun x hx => (hmem x hx).2
      _ = (values.rtake period).length * bound := nsmul_eq_mul ..
      _ ≤ bound * period := by
          rw [mul_comm]
          exact mul_le_mul_of_nonneg_left hlength hbound

namespace AverageCross

/-! ## The floor of the tolerance

The comparison of two means with the floor as a parameter. Means stand apart when their distance is
above both tolerances, the relative one and that of the floor. -/

/-- A billionth of the larger mean, and of the floor if both are smaller. -/
def tolerance (floor fast slow : ℚ) : ℚ := 1 / 1000000000 * max (max |fast| |slow|) floor

/-- How the fast mean stands to the slow one when the tolerance has another floor than one. Without
a floor the unit would not matter at all, so the floor is what a change of units acts on. -/
def standingOver (floor fast slow : ℚ) : Standing :=
  if tolerance floor fast slow < fast - slow then .above
  else if tolerance floor fast slow < slow - fast then .below
  else .level

theorem standingOf_rat (fast slow : ℚ) : standingOf fast slow = standingOver 1 fast slow := by
  have htolerance : (1e-9 : ℚ) * Scalar.max (Scalar.max (Scalar.abs fast) (Scalar.abs slow)) 1 =
      tolerance 1 fast slow := by
    rw [max_rat, max_rat, abs_rat, abs_rat, tolerance]
    norm_num
  unfold standingOf standingOver
  rw [← htolerance]
  rfl

variable {b floor floor' fast slow : ℚ}

theorem tolerance_mul (hb : 0 < b) (floor fast slow : ℚ) :
    tolerance floor (b * fast) (b * slow) = b * tolerance (1 / b * floor) fast slow := by
  have hfloor : b * (1 / b * floor) = floor := by
    field_simp
  rw [tolerance, tolerance, mul_left_comm, mul_max_of_nonneg _ _ hb.le, mul_max_of_nonneg _ _ hb.le,
    hfloor, abs_mul, abs_mul, abs_of_pos hb]

/-- **Means in another unit stand as in the first one**, with the floor in the first one as well.
The tolerance is relative but for the floor, which is why the floor alone is divided. -/
theorem standingOver_mul (hb : 0 < b) (floor fast slow : ℚ) :
    standingOver floor (b * fast) (b * slow) = standingOver (1 / b * floor) fast slow := by
  unfold standingOver
  rw [tolerance_mul hb, ← mul_sub, ← mul_sub]
  simp only [mul_lt_mul_iff_right₀ hb]

/-- Means that are apart by the tolerance without a floor, and level by the one with it. These are
the pairs of means for which the answer depends on the unit. -/
def FloorHides (floor fast slow : ℚ) : Prop :=
  tolerance 0 fast slow < |fast - slow| ∧ |fast - slow| ≤ tolerance floor fast slow

instance : Decidable (FloorHides floor fast slow) := inferInstanceAs (Decidable (_ ∧ _))

theorem tolerance_nonneg (floor fast slow : ℚ) : 0 ≤ tolerance floor fast slow := by
  have : 0 ≤ max (max |fast| |slow|) floor :=
    le_max_of_le_left (le_max_of_le_left (abs_nonneg fast))
  unfold tolerance
  positivity

theorem tolerance_zero_le (floor fast slow : ℚ) :
    tolerance 0 fast slow ≤ tolerance floor fast slow := by
  have hmax : 0 ≤ max |fast| |slow| := le_max_of_le_left (abs_nonneg fast)
  rw [tolerance, tolerance, max_eq_left hmax]
  exact mul_le_mul_of_nonneg_left (le_max_left ..) (by norm_num)

theorem standingOver_eq (floor fast slow : ℚ) :
    standingOver floor fast slow =
      if |fast - slow| ≤ tolerance floor fast slow then .level
      else if slow < fast then .above else .below := by
  have hnonneg := tolerance_nonneg floor fast slow
  unfold standingOver
  rcases lt_or_ge slow fast with hlt | hle
  · rw [abs_of_pos (sub_pos.mpr hlt), if_pos hlt]
    by_cases hnear : fast - slow ≤ tolerance floor fast slow
    · rw [if_neg (not_lt.mpr hnear), if_neg (by linarith), if_pos hnear]
    · rw [if_pos (not_le.mp hnear), if_neg hnear]
  · rw [abs_of_nonpos (sub_nonpos.mpr hle), neg_sub, if_neg (not_lt.mpr hle), if_neg (by linarith)]
    by_cases hnear : slow - fast ≤ tolerance floor fast slow
    · rw [if_neg (not_lt.mpr hnear), if_pos hnear]
    · rw [if_pos (not_le.mp hnear), if_neg hnear]

/-- Two floors that hide the same make no difference. Whether two means are level is settled by the
relative tolerance or by the floor, and the first of the two is the same for both. -/
theorem standingOver_congr (h : FloorHides floor fast slow ↔ FloorHides floor' fast slow) :
    standingOver floor fast slow = standingOver floor' fast slow := by
  -- within a tolerance are the means that are so without a floor, and those that the floor hides
  have hlevel : ∀ floor, |fast - slow| ≤ tolerance floor fast slow ↔
      |fast - slow| ≤ tolerance 0 fast slow ∨ FloorHides floor fast slow := by
    intro floor
    constructor
    · intro hle
      exact (le_or_gt |fast - slow| (tolerance 0 fast slow)).imp_right fun hlt => ⟨hlt, hle⟩
    · rintro (hle | hhides)
      · exact hle.trans (tolerance_zero_le floor fast slow)
      · exact hhides.2
  have hiff : |fast - slow| ≤ tolerance floor fast slow ↔
      |fast - slow| ≤ tolerance floor' fast slow := by
    rw [hlevel floor, hlevel floor', h]
  rw [standingOver_eq, standingOver_eq]
  simp only [hiff]

/-- Means of a billionth of the floor at most are level. Their difference is no more than the
tolerance then, whatever they are. -/
theorem standingOver_eq_level (hfast : 0 ≤ fast ∧ fast ≤ 1 / 1000000000 * floor)
    (hslow : 0 ≤ slow ∧ slow ≤ 1 / 1000000000 * floor) :
    standingOver floor fast slow = .level := by
  have htolerance : 1 / 1000000000 * floor ≤ tolerance floor fast slow :=
    mul_le_mul_of_nonneg_left (le_max_right ..) (by norm_num)
  have hclose : |fast - slow| ≤ 1 / 1000000000 * floor := by
    rw [abs_le]
    constructor <;> linarith
  rw [standingOver_eq, if_pos (hclose.trans htolerance)]

/-! ## Crossings over a floor

The definition of a crossing again, with the floor as a parameter. What is proved of standings is
carried over to two bars in a row. -/

def standingOverAt (floor : ℚ) (settings : CrossSettings ℚ) (closes : List ℚ) (i : Nat) :
    Standing :=
  standingOver floor (lastMean settings.fastPeriod (closes.take (i + 1)))
    (lastMean settings.slowPeriod (closes.take (i + 1)))

/-- `crossingAt` with another floor than one. -/
def crossingOver (floor : ℚ) (settings : CrossSettings ℚ) (closes : List ℚ) (i : Nat) : Action :=
  if settings.slowPeriod ≤ i ∧ standingOverAt floor settings closes (i - 1) ≠ .above ∧
      standingOverAt floor settings closes i = .above then .buy
  else if settings.slowPeriod ≤ i ∧ standingOverAt floor settings closes (i - 1) ≠ .below ∧
      standingOverAt floor settings closes i = .below then .sell
  else .hold

def FloorHidesAt (floor : ℚ) (settings : CrossSettings ℚ) (closes : List ℚ) (i : Nat) : Prop :=
  FloorHides floor (lastMean settings.fastPeriod (closes.take (i + 1)))
    (lastMean settings.slowPeriod (closes.take (i + 1)))

variable {settings : CrossSettings ℚ} {closes : List ℚ} {i : Nat}

instance : Decidable (FloorHidesAt floor settings closes i) :=
  inferInstanceAs (Decidable (FloorHides ..))

theorem crossingAt_eq_crossingOver :
    crossingAt settings closes i = crossingOver 1 settings closes i := by
  have hstanding : standingAt settings closes = standingOverAt 1 settings closes :=
    funext fun _ => standingOf_rat ..
  rw [crossingAt, crossingOver, hstanding]

theorem crossingOver_map_mul (hb : 0 < b) :
    crossingOver floor settings (closes.map (b * ·)) i =
      crossingOver (1 / b * floor) settings closes i := by
  have hstanding : standingOverAt floor settings (closes.map (b * ·)) =
      standingOverAt (1 / b * floor) settings closes := by
    funext j
    rw [standingOverAt, ← List.map_take, lastMean_map_mul, lastMean_map_mul, standingOver_mul hb]
    rfl
  rw [crossingOver, crossingOver, hstanding]

/-- A crossing is told by the standings at two bars, both with full means. -/
theorem crossingOver_congr
    (h : ∀ j, j ≤ i → settings.slowPeriod ≤ j + 1 →
      standingOverAt floor settings closes j = standingOverAt floor' settings closes j) :
    crossingOver floor settings closes i = crossingOver floor' settings closes i := by
  unfold crossingOver
  by_cases hslow : settings.slowPeriod ≤ i
  · rw [h i le_rfl (by omega), h (i - 1) (by omega) (by omega)]
  · simp only [hslow, false_and]

/-- At prices of a billionth of the floor at most there is no crossing, since the means of such
prices are no higher. -/
theorem crossingOver_eq_hold (hfloor : 0 ≤ floor)
    (hcloses : ∀ price ∈ closes, 0 ≤ price ∧ price ≤ 1 / 1000000000 * floor) :
    crossingOver floor settings closes i = .hold := by
  have hmeans : ∀ j period, 0 ≤ lastMean period (closes.take (j + 1)) ∧
      lastMean period (closes.take (j + 1)) ≤ 1 / 1000000000 * floor := by
    intro j period
    apply lastMean_mem_bounds
    · intro price hprice
      exact hcloses price (List.mem_of_mem_take hprice)
    · positivity
  have hlevel : ∀ j, standingOverAt floor settings closes j = .level :=
    fun j => standingOver_eq_level (hmeans j _) (hmeans j _)
  simp [crossingOver, hlevel]

/-! ## The rule in another unit

Only closing prices are read, but all four prices of a bar are changed: a series in another unit is
one that could have been loaded. -/

theorem getElem?_signals (hfast : 0 < settings.fastPeriod)
    (hperiods : settings.fastPeriod < settings.slowPeriod) {past : List (Bar ℚ)}
    {f : Follower (State ℚ)} (hf : (rule settings).Saw (Alike settings) past f)
    (bars : List (Bar ℚ)) (i : Nat) :
    ((rule settings).source.signals f bars).2[i]? = bars[i]?.map fun bar =>
      ⟨bar.timestamp, crossingOver 1 settings (bars.map Bar.closing) i⟩ := by
  cases hbar : bars[i]? with
  | none =>
    have hlength : ((rule settings).source.signals f bars).2.length = bars.length :=
      SignalSource.length_signalsAfter ..
    rw [List.getElem?_eq_none (hlength.trans_le (List.getElem?_eq_none_iff.mp hbar))]
    rfl
  | some bar =>
    rw [(PriceRule.signals_saw (bisimulation settings) hf bars).2 i
      (List.getElem?_eq_some_iff.mp hbar).1, answer_take hfast hperiods hbar,
      crossingAt_eq_crossingOver]
    rfl

/-- **What another unit of price does to the rule.** Along a series with all prices multiplied by
`b`, an object of it gives the crossings of the series itself over a floor of `1 / b`, whatever it
was asked before. Nothing changes if this floor hides what a floor of one hides, neither more nor
less. When the prices come to a billionth at most, nothing but holds is left. -/
theorem signals_repriced (settings : CrossSettings ℚ) (rule : PriceRule ℚ (State ℚ))
    (hrule : ofSettings settings = .ok rule) (earlier : List (Bar ℚ)) (calls : List Call)
    (bars : List (Bar ℚ)) (b : ℚ) (hb : 0 < b) :
    let f := rule.source.afterCalls earlier rule.fresh calls
    let closes := bars.map Bar.closing
    let before := (rule.source.signals f bars).2
    let after := (rule.source.signals f (bars.map (Bar.repriced b))).2
    after = bars.mapIdx (fun i bar => ⟨bar.timestamp, crossingOver (1 / b) settings closes i⟩) ∧
      ((∀ i, i < bars.length → settings.slowPeriod ≤ i + 1 →
          (FloorHidesAt (1 / b) settings closes i ↔ FloorHidesAt 1 settings closes i)) →
        after = before) ∧
      ((∀ price ∈ closes, 0 < price ∧ b * price ≤ 1 / 1000000000) →
        after = bars.map fun bar => .hold bar.timestamp) := by
  intro f closes before after
  obtain ⟨hcheck, rfl⟩ := checked_eq_ok_iff.mp hrule
  obtain ⟨hfast, hperiods⟩ := periods_of_check hcheck
  have hR := bisimulation settings
  obtain ⟨past, -, hf⟩ :=
    PriceRule.afterCalls_saw hR calls (PriceRule.fresh_saw hR) (List.nil_prefix (l := earlier))
  have hbefore : before = bars.mapIdx fun i bar =>
      ⟨bar.timestamp, crossingOver 1 settings closes i⟩ := by
    rw [eq_comm, List.mapIdx_eq_iff]
    exact getElem?_signals hfast hperiods hf bars
  have hafter : after = bars.mapIdx fun i bar =>
      ⟨bar.timestamp, crossingOver (1 / b) settings closes i⟩ := by
    rw [eq_comm, List.mapIdx_eq_iff]
    intro i
    have hsignal := getElem?_signals hfast hperiods hf (bars.map (Bar.repriced b)) i
    -- the factor goes from the prices to the floor, and the times are as they were
    rw [closing_map_repriced, crossingOver_map_mul hb, mul_one, List.getElem?_map,
      Option.map_map] at hsignal
    exact hsignal
  refine ⟨hafter, ?_, ?_⟩
  · intro hhides
    rw [hafter, hbefore]
    apply List.mapIdx_eq_mapIdx_iff.mpr
    intro i hi
    congr 1
    apply crossingOver_congr
    intro j hj hslow
    exact standingOver_congr (hhides j (by omega) hslow)
  · intro hcheap
    have hcloses : ∀ price ∈ closes, 0 ≤ price ∧ price ≤ 1 / 1000000000 * (1 / b) := by
      intro price hprice
      obtain ⟨hpos, hle⟩ := hcheap price hprice
      refine ⟨hpos.le, ?_⟩
      rw [mul_one_div, le_div_iff₀ hb, mul_comm]
      exact hle
    rw [hafter, List.mapIdx_eq_iff]
    intro i
    rw [crossingOver_eq_hold (one_div_pos.mpr hb).le hcloses, List.getElem?_map]
    rfl

/-- The sample rule over the sample bars: at three times the prices nothing changes, while at about
a trillionth of them it holds throughout. -/
theorem signals_repriced_sample :
    let source := sampleRule.source
    ofSettings (⟨1, 2, 1 / 2⟩ : CrossSettings ℚ) = .ok sampleRule ∧
      (source.signals sampleRule.fresh (sampleBars.map (Bar.repriced 3))).2 =
        (source.signals sampleRule.fresh sampleBars).2 ∧
      (source.signals sampleRule.fresh (sampleBars.map (Bar.repriced (1 / 2 ^ 40)))).2 =
        sampleBars.map fun bar => .hold bar.timestamp := by
  intro source
  obtain ⟨-, hsame, -⟩ := signals_repriced ⟨1, 2, 1 / 2⟩ sampleRule ofSettings_sampleRule [] []
    sampleBars 3 (by norm_num)
  obtain ⟨-, -, hcheap⟩ := signals_repriced ⟨1, 2, 1 / 2⟩ sampleRule ofSettings_sampleRule [] []
    sampleBars (1 / 2 ^ 40) (by norm_num)
  exact ⟨ofSettings_sampleRule, hsame (by decide +kernel), hcheap (by decide +kernel)⟩

/-- The rule depends on the unit of price, at prices above zero as well. The prices of the sample
are so low in the second unit that all means are level there. -/
theorem signals_depend_on_unit :
    ¬∀ (settings : CrossSettings ℚ) (rule : PriceRule ℚ (State ℚ)),
      ofSettings settings = .ok rule → ∀ (bars : List (Bar ℚ)) (b : ℚ),
        (∀ bar ∈ bars, 0 < bar.closing) → 0 < b →
          (rule.source.signals rule.fresh (bars.map (Bar.repriced b))).2 =
            (rule.source.signals rule.fresh bars).2 := by
  intro h
  have hsame := h ⟨1, 2, 1 / 2⟩ sampleRule ofSettings_sampleRule sampleBars (1 / 2 ^ 40)
    (by decide +kernel) (by norm_num)
  -- in the one unit there are three crossings, in the other none
  have hdiffer : (sampleRule.source.signals sampleRule.fresh
      (sampleBars.map (Bar.repriced (1 / 2 ^ 40)))).2 ≠
        (sampleRule.source.signals sampleRule.fresh sampleBars).2 := by
    decide +kernel
  exact hdiffer hsame

end AverageCross

end MarketReplay
