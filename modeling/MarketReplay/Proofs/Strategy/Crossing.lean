import MarketReplay.Proofs.Indicator.Trailing
import MarketReplay.Proofs.Strategy.CallOrder

/-!
# What a crossing is

Crossing averages, said without windows and without a state: the means of the last closing prices up
to a bar, how the fast one stands to the slow one (`AverageCross.standingAt`, with the tolerance
that the rule itself applies), and the change of standing from one bar to the next
(`AverageCross.crossingAt`). The first bar with both means is `slowPeriod - 1`, so that the first
change there can be is at bar `slowPeriod`.

**`AverageCross.signals_refine`**: over the rationals the rule answers exactly so, along every
series, and shows exactly these means. The invariant is that of its state after some prices
(`AverageCross.Follows`): both windows trail the prices, and the standing kept is that of the last
price, once there is one.
-/

set_option autoImplicit false

namespace MarketReplay

namespace AverageCross

/-! ## The plain definition

A crossing as a chart shows it. Only closing prices up to the bar are read, and the rule's own
comparison of two means, so that nothing is claimed about roundings that the rule does not do. -/

/-- How the mean of the last closing prices over the fast period stands to that over the slow
one. -/
def lastStanding (settings : CrossSettings ℚ) (closes : List ℚ) : Standing :=
  standingOf (lastMean settings.fastPeriod closes) (lastMean settings.slowPeriod closes)

/-- The standing at a place of a series. It is the last one of a beginning, so what comes after the
place cannot matter to it. -/
def standingAt (settings : CrossSettings ℚ) (closes : List ℚ) (i : Nat) : Standing :=
  lastStanding settings (closes.take (i + 1))

/-- A buy where the fast mean comes to stand above the slow one, a sell where it comes to stand
below. The bar before has to have both means too, which is why nothing happens at the first bar that
has them. -/
def crossingAt (settings : CrossSettings ℚ) (closes : List ℚ) (i : Nat) : Action :=
  if settings.slowPeriod ≤ i ∧ standingAt settings closes (i - 1) ≠ .above ∧
      standingAt settings closes i = .above then .buy
  else if settings.slowPeriod ≤ i ∧ standingAt settings closes (i - 1) ≠ .below ∧
      standingAt settings closes i = .below then .sell
  else .hold

variable {settings : CrossSettings ℚ} {closes : List ℚ}

theorem crossingAt_take {i n : Nat} (h : i < n) :
    crossingAt settings (closes.take n) i = crossingAt settings closes i := by
  have hstanding : ∀ j, j < n →
      standingAt settings (closes.take n) j = standingAt settings closes j := by
    intro j hj
    rw [standingAt, standingAt, List.take_take, Nat.min_eq_left hj]
  rw [crossingAt, crossingAt, hstanding i h, hstanding (i - 1) (by omega)]

theorem actionOf_some (before now : Standing) :
    actionOf (some before) now =
      if before ≠ .above ∧ now = .above then .buy
      else if before ≠ .below ∧ now = .below then .sell
      else .hold := by
  cases before <;> cases now <;> rfl

theorem actionOf_none (now : Standing) : actionOf none now = .hold := by
  cases now <;> rfl

/-- At the last price of a list the crossing is the change of standing that this price makes. This
is the form in which the state computes it: the old standing, and the one with the new price. -/
theorem crossingAt_concat (price : ℚ) (hslow : settings.slowPeriod ≤ closes.length)
    (hpos : 0 < settings.slowPeriod) :
    crossingAt settings (closes ++ [price]) closes.length =
      actionOf (some (lastStanding settings closes))
        (lastStanding settings (closes ++ [price])) := by
  have hnow : standingAt settings (closes ++ [price]) closes.length =
      lastStanding settings (closes ++ [price]) := by
    have hlength : (closes ++ [price]).length = closes.length + 1 := List.length_append
    rw [standingAt, List.take_of_length_le (Nat.le_of_eq hlength)]
  have hbefore : standingAt settings (closes ++ [price]) (closes.length - 1) =
      lastStanding settings closes := by
    rw [standingAt, Nat.sub_add_cancel (Nat.lt_of_lt_of_le hpos hslow), List.take_left]
  rw [actionOf_some, crossingAt, hnow, hbefore]
  simp only [hslow, true_and]

theorem crossingAt_of_lt {i : Nat} (h : i < settings.slowPeriod) :
    crossingAt settings closes i = .hold := by
  have hnot : ¬settings.slowPeriod ≤ i := Nat.not_le.mpr h
  simp only [crossingAt, hnot, false_and, if_false]

/-! ## The state after some prices

The invariant of the rule over exact numbers. The windows trail the prices for as long as they are
fed, and the standing is a function of the prices, too, once both means exist. -/

/-- Both windows trail the prices. It is split from the standing because a price goes into the
windows before the standing is known. -/
structure Windows (settings : CrossSettings ℚ) (s : State ℚ) (closes : List ℚ) : Prop where
  fast : s.fast.Trails closes
  slow : s.slow.Trails closes
  fast_capacity : s.fast.capacity = settings.fastPeriod
  slow_capacity : s.slow.capacity = settings.slowPeriod

/-- The state is the one after the prices: its windows trail them, and the standing is the last
one there was. -/
structure Follows (settings : CrossSettings ℚ) (s : State ℚ) (closes : List ℚ) : Prop
    extends Windows settings s closes where
  standing_eq : s.standing =
    if closes.length < settings.slowPeriod then none else some (lastStanding settings closes)

variable {s : State ℚ}

/-- The means are there when the slow window is full: the fast one is then full as well, being the
shorter. -/
theorem Windows.averages?_eq (h : Windows settings s closes)
    (hperiods : settings.fastPeriod < settings.slowPeriod) :
    s.averages? =
      if closes.length < settings.slowPeriod then none
      else some (lastMean settings.fastPeriod closes, lastMean settings.slowPeriod closes) := by
  unfold State.averages?
  rw [h.fast.mean?_eq, h.slow.mean?_eq, h.fast_capacity, h.slow_capacity]
  by_cases hshort : closes.length < settings.slowPeriod
  · rw [if_pos hshort, if_pos hshort]
    cases (if closes.length < settings.fastPeriod then none
      else some (lastMean settings.fastPeriod closes)) <;> rfl
  · rw [if_neg hshort, if_neg hshort, if_neg (by omega)]

theorem Windows.push (h : Windows settings s closes) (price : ℚ) (standing : Option Standing) :
    Windows settings ⟨(s.fast.push price).1, (s.slow.push price).1, standing⟩
      (closes ++ [price]) where
  fast := h.fast.push price
  slow := h.slow.push price
  fast_capacity := (RollingWindow.capacity_push ..).trans h.fast_capacity
  slow_capacity := (RollingWindow.capacity_push ..).trans h.slow_capacity

/-- **A price keeps the state in step**, and the answer to it is the crossing it makes. The cases
are those of the warm-up: before there are means, the first time there are, and afterwards. -/
theorem Follows.observe (h : Follows settings s closes)
    (hperiods : settings.fastPeriod < settings.slowPeriod) (price : ℚ) :
    Follows settings (observe s price).1 (closes ++ [price]) ∧
      (observe s price).2 = crossingAt settings (closes ++ [price]) closes.length := by
  have haverages := (h.push price s.standing).averages?_eq hperiods
  rw [List.length_append, List.length_singleton] at haverages
  unfold AverageCross.observe
  by_cases hshort : closes.length + 1 < settings.slowPeriod
  · -- without means the state is left as it is
    rw [if_pos hshort] at haverages
    simp only [haverages]
    refine ⟨⟨h.push price s.standing, ?_⟩, (crossingAt_of_lt (by omega)).symm⟩
    rw [List.length_append, List.length_singleton, if_pos hshort]
    show s.standing = none
    rw [h.standing_eq, if_pos (by omega)]
  · rw [if_neg hshort] at haverages
    simp only [haverages]
    refine ⟨⟨h.push price _, ?_⟩, ?_⟩
    · rw [List.length_append, List.length_singleton, if_neg hshort]
      rfl
    · -- the first standing is a baseline, every later one is compared to the one before
      show actionOf s.standing (lastStanding settings (closes ++ [price])) = _
      by_cases hfirst : closes.length < settings.slowPeriod
      · rw [h.standing_eq, if_pos hfirst, crossingAt_of_lt hfirst, actionOf_none]
      · rw [h.standing_eq, if_neg hfirst, crossingAt_concat price (by omega) (by omega)]

/-- **The state after some bars is the one after their closing prices.** -/
theorem follows_after (hfast : 0 < settings.fastPeriod)
    (hperiods : settings.fastPeriod < settings.slowPeriod) (bars : List (Bar ℚ)) :
    Follows settings ((rule settings).after bars) (bars.map Bar.closing) := by
  induction bars using List.reverseRecOn with
  | nil =>
    refine ⟨⟨.empty _, .empty _, Nat.max_eq_left hfast, Nat.max_eq_left (by omega)⟩, ?_⟩
    rw [List.map_nil, List.length_nil, if_pos (by omega)]
    rfl
  | append_singleton past bar ih =>
    rw [PriceRule.after_concat, List.map_append, List.map_singleton]
    exact (ih.observe hperiods bar.closing).1

/-- What the rule says to a bar is the crossing at it. -/
theorem answer_take (hfast : 0 < settings.fastPeriod)
    (hperiods : settings.fastPeriod < settings.slowPeriod) {bars : List (Bar ℚ)} {i : Nat}
    {bar : Bar ℚ} (hbar : bars[i]? = some bar) :
    (rule settings).answer (bars.take (i + 1)) =
      ⟨bar.timestamp, crossingAt settings (bars.map Bar.closing) i⟩ := by
  have hlt := (List.getElem?_eq_some_iff.mp hbar).1
  have hlength : ((bars.take i).map Bar.closing).length = i := by
    rw [List.length_map, List.length_take_of_le (Nat.le_of_lt hlt)]
  have hanswer := ((follows_after hfast hperiods (bars.take i)).observe hperiods bar.closing).2
  rw [hlength, List.map_take, ← PriceRule.take_succ_closings hbar,
    crossingAt_take (Nat.lt_succ_self i)] at hanswer
  rw [PriceRule.answer_take _ hbar]
  exact congrArg (Signal.mk bar.timestamp) hanswer

/-! ## The rule

From single bars to whole series, and from new objects to used ones. The first step is an equation
of lists, place by place; the second is what the module on the order of calls is for. -/

theorem periods_of_check {α : Type} [Scalar α] {settings : CrossSettings α}
    (h : settings.check = .ok ()) :
    0 < settings.fastPeriod ∧ settings.fastPeriod < settings.slowPeriod := by
  unfold CrossSettings.check at h
  split at h
  · cases h
  · split at h
    · cases h
    · split at h
      · cases h
      · omega

theorem positionSize_of_check {α : Type} [Scalar α] {settings : CrossSettings α}
    (h : settings.check = .ok ()) : 0 < settings.positionSize ∧ settings.positionSize ≤ 1 := by
  unfold CrossSettings.check checkPositionSize at h
  split at h
  · cases h
  · split at h
    · cases h
    · split at h
      · cases h
      · split at h
        · rename_i hsize
          exact hsize
        · cases h

/-- **The rule is its plain definition.** Whatever an object of it was asked before, along a series
it gives the crossings, each with the time of its bar, and after a bar it shows the means of the
last closing prices, once there are as many as the slow period. -/
theorem signals_refine (settings : CrossSettings ℚ) (rule : PriceRule ℚ (State ℚ))
    (hrule : ofSettings settings = .ok rule) (earlier : List (Bar ℚ)) (calls : List Call)
    (bars : List (Bar ℚ)) :
    let f := rule.source.afterCalls earlier rule.fresh calls
    let closes := bars.map Bar.closing
    (rule.source.signals f bars).2 =
        bars.mapIdx (fun i bar => ⟨bar.timestamp, crossingAt settings closes i⟩) ∧
      ∀ i, i < bars.length →
        (rule.source.signals f (bars.take (i + 1))).1.state.averages? =
          if i + 1 < settings.slowPeriod then none
          else some (lastMean settings.fastPeriod (closes.take (i + 1)),
            lastMean settings.slowPeriod (closes.take (i + 1))) := by
  intro f closes
  obtain ⟨hcheck, rfl⟩ := checked_eq_ok_iff.mp hrule
  obtain ⟨hfast, hperiods⟩ := periods_of_check hcheck
  have hR := bisimulation settings
  obtain ⟨past, -, hf⟩ :=
    PriceRule.afterCalls_saw hR calls (PriceRule.fresh_saw hR) (List.nil_prefix (l := earlier))
  constructor
  · apply List.ext_getElem?
    intro i
    rw [List.getElem?_mapIdx]
    cases hbar : bars[i]? with
    | none =>
      rw [List.getElem?_eq_none_iff.mpr]
      · rfl
      · rw [SignalSource.signals, SignalSource.length_signalsAfter]
        exact List.getElem?_eq_none_iff.mp hbar
    | some bar =>
      -- the answer at a bar is the one in order, and that is the crossing
      rw [(PriceRule.signals_saw hR hf bars).2 i (List.getElem?_eq_some_iff.mp hbar).1,
        answer_take hfast hperiods hbar]
      rfl
  · intro i hi
    have hsaw := (PriceRule.signals_saw hR hf (bars.take (i + 1))).1
    -- the state of a new object after these bars, which the object in use is alike to
    have hmeans := (follows_after hfast hperiods (bars.take (i + 1))).averages?_eq hperiods
    rw [List.length_map, List.length_take_of_le hi, List.map_take] at hmeans
    exact hsaw.state.averages?_eq.trans hmeans

/-- The sample rule, after calls about the sample bars, asked along them again: the fast mean is
above the slow one at the third bar, below it at the fourth, and above it at the fifth. -/
theorem signals_refine_sample :
    let f := sampleRule.source.afterCalls sampleBars sampleRule.fresh sampleCalls
    ofSettings (⟨1, 2, 1 / 2⟩ : CrossSettings ℚ) = .ok sampleRule ∧
      (sampleRule.source.signals f sampleBars).2.map Signal.action =
        [.hold, .hold, .buy, .sell, .buy] ∧
      (sampleRule.source.signals f (sampleBars.take 3)).1.state.averages? = some (12, 21 / 2) := by
  intro f
  obtain ⟨hsignals, hmeans⟩ := signals_refine ⟨1, 2, 1 / 2⟩ sampleRule ofSettings_sampleRule
    sampleBars sampleCalls sampleBars
  refine ⟨ofSettings_sampleRule, ?_, ?_⟩
  · rw [hsignals]
    decide +kernel
  · rw [hmeans 2 (by decide +kernel)]
    decide +kernel

end AverageCross

end MarketReplay
