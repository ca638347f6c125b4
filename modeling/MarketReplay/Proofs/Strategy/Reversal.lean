import MarketReplay.Proofs.Double
import MarketReplay.Proofs.Strategy.CallOrder

/-!
# What a reversal is

The rule on relative strength, said by the indicator along all closing prices: it buys where the
strength falls below the oversold threshold (`Reversion.FallsBelow`) and sells where it rises above
the overbought one (`Reversion.RisesAbove`).

**`Reversion.signals_by_strengths`**: on doubles the rule answers exactly so, along every series. No
arithmetic is looked at, so the numbers are the same to the last bit. The invariant of the state is
that it holds the indicator after the prices so far, with the last strength it gave
(`Reversion.Follows`). Since the first strength has none before it, the first answer comes one bar
after it.
-/

set_option autoImplicit false

namespace MarketReplay

namespace Reversion

section scalar

variable {α : Type} [Scalar α]

/-! ## The plain definition

A reversal on the list of strengths that the indicator gives for all closing prices. The list is
computed in one go and knows nothing of the rule. -/

/-- The strength was not below the threshold at the place before, and is below it at the place. Both
strengths have to be there, so that the first of them never falls. -/
def FallsBelow (threshold : α) (strengths : List (Option α)) (i : Nat) : Prop :=
  ∃ before now, strengths[i - 1]? = some (some before) ∧ strengths[i]? = some (some now) ∧
    threshold ≤ before ∧ now < threshold

/-- The strength was not above the threshold at the place before, and is above it at the place. Both
strengths have to be there, so nothing rises at the end of the warm-up. -/
def RisesAbove (threshold : α) (strengths : List (Option α)) (i : Nat) : Prop :=
  ∃ before now, strengths[i - 1]? = some (some before) ∧ strengths[i]? = some (some now) ∧
    before ≤ threshold ∧ threshold < now

/-- What two strengths in a row ask for. One that is missing asks for nothing, which is the silence
of the warm-up. -/
def moveOf (settings : ReversionSettings α) : Option α → Option α → Action
  | some before, some now => actionOf settings before now
  | _, _ => .hold

variable {settings : ReversionSettings α}

theorem moveOf_none (now : Option α) : moveOf settings none now = .hold := rfl

theorem moveOf_eq_buy_iff {before now : Option α} :
    moveOf settings before now = .buy ↔
      ∃ b ∈ before, ∃ n ∈ now, settings.oversold ≤ b ∧ n < settings.oversold := by
  unfold moveOf actionOf
  rcases before with _ | b <;> rcases now with _ | n
  · simp
  · simp
  · simp
  · simp only [Option.mem_def, Option.some.injEq, exists_eq_left']
    split
    · rename_i h
      exact iff_of_true rfl h
    · rename_i h
      split <;> exact iff_of_false nofun h

/-- A sell comes second in the rule, which only matters where a buy could come first. The hypothesis
excludes it for thresholds in order, and is a fact about the comparison of doubles. -/
theorem moveOf_eq_sell_iff {before now : Option α}
    (hapart : ∀ x, x < settings.oversold → ¬settings.overbought < x) :
    moveOf settings before now = .sell ↔
      ∃ b ∈ before, ∃ n ∈ now, b ≤ settings.overbought ∧ settings.overbought < n := by
  unfold moveOf actionOf
  -- without both strengths there is no move
  rcases before with _ | b <;> rcases now with _ | n
  · simp
  · simp
  · simp
  · simp only [Option.mem_def, Option.some.injEq, exists_eq_left']
    split
    · rename_i h
      exact iff_of_false nofun fun hsell => hapart n h.2 hsell.2
    · split
      · rename_i h
        exact iff_of_true rfl h
      · rename_i h
        exact iff_of_false nofun h

/-! ## The state after some prices

The state keeps the indicator and the strength it gave last. For any scalar these are the indicator
after the prices and the last strength of the list. -/

/-- The strength after some prices, once there is one. -/
def lastStrength (period : Nat) (closes : List α) : Option α :=
  if closes.length ≤ period then none
  else some ((RelativeStrength.start period).after closes).value

/-- The state holds the indicator after the prices, and the strength it gave to the last one. -/
structure Follows (settings : ReversionSettings α) (s : State α) (closes : List α) : Prop where
  strength_eq : s.strength = (RelativeStrength.start settings.period).after closes
  before_eq : s.before = lastStrength settings.period closes

variable {s : State α} {closes : List α}

theorem lastStrength_concat (period : Nat) (closes : List α) (price : α) :
    lastStrength period (closes ++ [price]) =
      if closes.length < period then none
      else some ((RelativeStrength.start period).after (closes ++ [price])).value := by
  rw [lastStrength, List.length_append, List.length_singleton]
  rfl

theorem lastStrength_take_of_le {period i : Nat} (hi : i ≤ period) :
    lastStrength period (closes.take i) = none := by
  rw [lastStrength, if_pos ((List.length_take_le i closes).trans hi)]

theorem getElem?_strengths {period : Nat} (hperiod : 0 < period) {i : Nat}
    (hi : i < closes.length) :
    (relativeStrengths closes period)[i]? = some (lastStrength period (closes.take (i + 1))) := by
  rw [getElem?_relativeStrengths hperiod, List.getElem?_eq_getElem hi, Option.map_some,
    lastStrength, List.length_take_of_le hi]
  rfl

/-- Two strengths in a row, from the second strength on, are the last ones before a place and after
it. The relation between the two is a parameter, so that buying and selling are two uses of one
lemma. -/
theorem exists_strengths_iff {period : Nat} (hperiod : 0 < period) {i : Nat}
    (hi : i < closes.length) (P : α → α → Prop) :
    (period + 1 ≤ i ∧ ∃ before now,
        (relativeStrengths closes period)[i - 1]? = some (some before) ∧
        (relativeStrengths closes period)[i]? = some (some now) ∧ P before now) ↔
      ∃ before ∈ lastStrength period (closes.take i),
        ∃ now ∈ lastStrength period (closes.take (i + 1)), P before now := by
  -- whether there is a strength before the place
  rcases Nat.lt_or_ge period i with hlate | hearly
  · have hplace : i - 1 < closes.length := by omega
    rw [getElem?_strengths hperiod hplace, Nat.sub_add_cancel (Nat.one_le_of_lt hlate),
      getElem?_strengths hperiod hi]
    simp only [Option.some.injEq, Option.mem_def]
    constructor
    · rintro ⟨-, before, now, hb, hn, h⟩
      exact ⟨before, hb, now, hn, h⟩
    · rintro ⟨before, hb, now, hn, h⟩
      exact ⟨hlate, before, now, hb, hn, h⟩
  · rw [lastStrength_take_of_le hearly]
    constructor
    · rintro ⟨hlate, -⟩
      exact absurd hlate (by omega)
    · rintro ⟨before, hb, -⟩
      cases hb

/-- **A price keeps the state in step**, and the answer to it is what the strength before it and the
one after it ask for. Only the bookkeeping of the indicator is used: when it answers, and not
what. -/
theorem Follows.observe (h : Follows settings s closes) (hperiod : 0 < settings.period)
    (price : α) :
    Follows settings (observe settings s price).1 (closes ++ [price]) ∧
      (observe settings s price).2 =
        moveOf settings (lastStrength settings.period closes)
          (lastStrength settings.period (closes ++ [price])) := by
  have hcounts := RelativeStrength.Counts.after settings.period closes
  have hconcat := lastStrength_concat settings.period closes price
  have hstrength : (s.strength.update price).1 =
      (RelativeStrength.start settings.period).after (closes ++ [price]) := by
    rw [h.strength_eq, RelativeStrength.after_concat]
  have hlast : (s.strength.update price).2 = lastStrength settings.period (closes ++ [price]) := by
    rw [hconcat, h.strength_eq, hcounts.snd_update hperiod, RelativeStrength.after_concat]
  unfold Reversion.observe
  simp only [hlast]
  by_cases hshort : closes.length < settings.period
  · -- no strength yet: the state before had none either
    have hbefore : s.before = none := by rw [h.before_eq, lastStrength, if_pos hshort.le]
    rw [if_pos hshort] at hconcat
    rw [← h.before_eq, hconcat, hbefore]
    exact ⟨⟨hstrength, hconcat.symm⟩, rfl⟩
  · rw [if_neg hshort] at hconcat
    rw [← h.before_eq, hconcat]
    refine ⟨⟨hstrength, hconcat.symm⟩, ?_⟩
    cases s.before <;> rfl

/-- **The state after some bars is the one after their closing prices.** -/
theorem follows_after (hperiod : 0 < settings.period) (bars : List (Bar α)) :
    Follows settings ((rule settings).after bars) (bars.map Bar.closing) := by
  induction bars using List.reverseRecOn with
  | nil => exact ⟨rfl, (if_pos (Nat.zero_le _)).symm⟩
  | append_singleton past bar ih =>
    rw [PriceRule.after_concat, List.map_append, List.map_singleton]
    exact (ih.observe hperiod bar.closing).1

/-- What the rule says to a bar. -/
theorem answer_take (hperiod : 0 < settings.period) {bars : List (Bar α)} {i : Nat} {bar : Bar α}
    (hbar : bars[i]? = some bar) :
    (rule settings).answer (bars.take (i + 1)) =
      ⟨bar.timestamp, moveOf settings
        (lastStrength settings.period ((bars.map Bar.closing).take i))
        (lastStrength settings.period ((bars.map Bar.closing).take (i + 1)))⟩ := by
  have hanswer := ((follows_after hperiod (bars.take i)).observe hperiod bar.closing).2
  rw [List.map_take, ← PriceRule.take_succ_closings hbar] at hanswer
  rw [PriceRule.answer_take _ hbar]
  exact congrArg (Signal.mk bar.timestamp) hanswer

end scalar

/-! ## The rule

On doubles, because this is what the program runs on. The one thing that is asked of their
comparison is that it is transitive, which holds although it is not total. -/

theorem thresholds_of_check {α : Type} [Scalar α] {settings : ReversionSettings α}
    (h : settings.check = .ok ()) :
    0 < settings.period ∧ settings.oversold < settings.overbought := by
  unfold ReversionSettings.check at h
  split at h
  · cases h
  · split at h
    · rename_i hperiod hthresholds
      exact ⟨Nat.pos_of_ne_zero (by omega), hthresholds.2.1⟩
    · cases h

theorem not_overbought {settings : ReversionSettings Float}
    (horder : settings.oversold < settings.overbought) {x : Float} (hx : x < settings.oversold) :
    ¬settings.overbought < x := fun hover =>
  Double.not_lt_of_le (Double.le_of_lt hx) (Double.lt_trans horder hover)

/-- **The rule is said by the indicator along all closing prices**, to the last bit. Whatever an
object of it was asked before, along a series it buys exactly where the strength falls below the
oversold threshold and sells exactly where it rises above the overbought one, from the bar after the
first strength on. The two never happen together, and during the warm-up nothing does. -/
theorem signals_by_strengths (settings : ReversionSettings Float)
    (rule : PriceRule Float (State Float)) (hrule : ofSettings settings = .ok rule)
    (earlier : List (Bar Float)) (calls : List Call) (bars : List (Bar Float)) :
    let f := rule.source.afterCalls earlier rule.fresh calls
    let signals := (rule.source.signals f bars).2
    let strengths := relativeStrengths (bars.map Bar.closing) settings.period
    signals.length = bars.length ∧
      ∀ (i : Nat) (bar : Bar Float), bars[i]? = some bar →
        ¬(FallsBelow settings.oversold strengths i ∧ RisesAbove settings.overbought strengths i) ∧
        ∃ action, signals[i]? = some ⟨bar.timestamp, action⟩ ∧
          (action = .buy ↔ settings.period + 1 ≤ i ∧ FallsBelow settings.oversold strengths i) ∧
          (action = .sell ↔ settings.period + 1 ≤ i ∧ RisesAbove settings.overbought strengths i) ∧
          (i < rule.warmup → action = .hold) := by
  intro f signals strengths
  obtain ⟨hcheck, rfl⟩ := checked_eq_ok_iff.mp hrule
  obtain ⟨hperiod, horder⟩ := thresholds_of_check hcheck
  have hR := bisimulation settings
  obtain ⟨past, -, hf⟩ :=
    PriceRule.afterCalls_saw hR calls (PriceRule.fresh_saw hR) (List.nil_prefix (l := earlier))
  refine ⟨SignalSource.length_signalsAfter .., ?_⟩
  intro i bar hbar
  have hlt := (List.getElem?_eq_some_iff.mp hbar).1
  have hcloses : i < (bars.map Bar.closing).length := by rwa [List.length_map]
  refine ⟨?_, _, ((PriceRule.signals_saw hR hf bars).2 i hlt).trans
    (congrArg some (answer_take hperiod hbar)), ?_⟩
  · -- one strength would lie on both sides at once
    rintro ⟨⟨b, n, -, hn, -, hbelow⟩, ⟨b', n', -, hn', -, habove⟩⟩
    obtain rfl : n = n' := Option.some.inj (Option.some.inj (hn.symm.trans hn'))
    exact not_overbought horder hbelow habove
  · rw [moveOf_eq_buy_iff, moveOf_eq_sell_iff fun x => not_overbought horder]
    refine ⟨(exists_strengths_iff hperiod hcloses _).symm,
      (exists_strengths_iff hperiod hcloses _).symm, ?_⟩
    intro hwarmup
    rw [lastStrength_take_of_le (Nat.le_of_lt_succ hwarmup), moveOf_none]

/-- Thresholds of a relative strength that looks at one change only. -/
def sampleThresholds : ReversionSettings Float := ⟨1, 30, 70, 1 / 2⟩

/-- Closing prices that fall, rise and fall again. -/
def swingingBars : List (Bar Float) :=
  [10, 9, 12, 11].zipIdx.map fun (price, i) => .ofPrices (i : Int) price price price price 1

/-- The first strength is 0 and has none before it. Then it rises to 100, which is a sell, and falls
back, which is a buy. -/
theorem signals_by_strengths_sample :
    let sampled := rule sampleThresholds
    let signals := (sampled.source.signals sampled.fresh swingingBars).2
    ofSettings sampleThresholds = .ok sampled ∧
      signals[1]? = some ⟨1, .hold⟩ ∧ signals[2]? = some ⟨2, .sell⟩ ∧
      signals[3]? = some ⟨3, .buy⟩ := by
  intro sampled signals
  have hrule : ofSettings sampleThresholds = .ok sampled := by
    refine checked_eq_ok_iff.mpr ⟨?_, rfl⟩
    rw [ReversionSettings.check, if_neg (by decide), if_pos (by decide +kernel)]
    exact if_pos (by decide +kernel)
  have hstrengths : relativeStrengths (swingingBars.map Bar.closing) sampleThresholds.period =
      [none, some 0, some 100, some 0] := by
    decide +kernel
  obtain ⟨-, hsignals⟩ := signals_by_strengths sampleThresholds sampled hrule [] [] swingingBars
  rw [hstrengths] at hsignals
  obtain ⟨-, first, hfirst, -, -, hwarmup⟩ := hsignals 1 _ rfl
  obtain ⟨-, second, hsecond, -, hsell, -⟩ := hsignals 2 _ rfl
  obtain ⟨-, third, hthird, hbuy, -, -⟩ := hsignals 3 _ rfl
  obtain rfl := hwarmup (by decide)
  obtain rfl := hsell.mpr ⟨by decide, 0, 100, rfl, rfl, by decide +kernel, by decide +kernel⟩
  obtain rfl := hbuy.mpr ⟨by decide, 100, 0, rfl, rfl, by decide +kernel, by decide +kernel⟩
  exact ⟨hrule, hfirst, hsecond, hthird⟩

end Reversion

end MarketReplay
