import MarketReplay.Strategy.Rule

/-!
# Answers that follow from the bars

A source may keep state, and yet its answers may follow from the bars it is shown
(`SignalSource.AnswersBy`). For rules on closing prices they do, and the function is the plain one:
take the prices in order, from the start (`PriceRule.answer`).

A rule resets its state in its own way, so that the state after a reset is in general not the start.
All that can be asked for is a relation that neither a price nor a reset leads out of and that shows
in no answer (`PriceRule.Bisimulation`). A follower then *saw* some bars when its count is theirs
and its state stands in the relation to the one they lead to.

**What a follower saw before does not matter** (`PriceRule.signalFor_saw`): asked about a prefix of
a series after any other prefix of it, it answers as it would in order, and has then seen the prefix
asked about. The count is all that a follower compares, and it is enough, because two prefixes of
one series with the same length are the same.
-/

set_option autoImplicit false

namespace MarketReplay

/-! ## Sources that answer by the bars

For theorems about runs it does not matter how a source computes its answers. `AnswersBy` is what
they ask for, and a source without any state has it trivially. -/

theorem eq_of_values {β : Type} {l₁ l₂ : List β} {n : Nat} {value : Nat → β}
    (hlength₁ : l₁.length = n) (hlength₂ : l₂.length = n)
    (h₁ : ∀ i, i < n → l₁[i]? = some (value i)) (h₂ : ∀ i, i < n → l₂[i]? = some (value i)) :
    l₁ = l₂ := by
  apply List.ext_getElem?
  intro i
  by_cases hi : i < n
  · rw [h₁ i hi, h₂ i hi]
  · rw [List.getElem?_eq_none (by omega), List.getElem?_eq_none (by omega)]

namespace SignalSource

variable {α σ τ : Type}

/-- After a reset in a state, the answer at each bar of a series depends on the bars up to it and on
nothing else. The function is a parameter, so that two sources can be said to answer by the same
one. -/
def AnswersBy (source : SignalSource α σ) (answer : List (Bar α) → Signal) (state : σ) : Prop :=
  ∀ (bars : List (Bar α)) (i : Nat), i < bars.length →
    (source.signals state bars).2[i]? = some (answer (bars.take (i + 1)))

theorem length_signalsAfter (source : SignalSource α σ) (bars : List (Bar α))
    (seen : Array (Bar α)) (state : σ) :
    (source.signalsAfter seen state bars).2.length = bars.length := by
  induction bars generalizing seen state with
  | nil => rfl
  | cons bar rest ih =>
    simp only [signalsAfter, List.length_cons, Nat.succ.injEq]
    apply ih

theorem AnswersBy.signals_eq {source₁ : SignalSource α σ} {source₂ : SignalSource α τ}
    {answer : List (Bar α) → Signal} {state₁ : σ} {state₂ : τ}
    (h₁ : source₁.AnswersBy answer state₁) (h₂ : source₂.AnswersBy answer state₂)
    (bars : List (Bar α)) :
    (source₁.signals state₁ bars).2 = (source₂.signals state₂ bars).2 :=
  eq_of_values (length_signalsAfter ..) (length_signalsAfter ..) (h₁ bars) (h₂ bars)

end SignalSource

/-! ## Rules that take prices in order

What a rule answers when it is never asked anything out of turn. Everything else is compared with
this, and what the rule says as a definition is proved of it (`AverageCross.answer_take`). -/

namespace PriceRule

variable {α σ : Type}

/-- The state to which the closing prices of some bars lead, from the start. Whatever a source was
asked before, it answers from such a state. -/
def after (rule : PriceRule α σ) (bars : List (Bar α)) : σ :=
  bars.foldl (fun s bar => (rule.observe s bar.closing).1) rule.start

/-- The answer at the last of some bars that are taken in order, from the start. It is a function of
the bars and mentions no follower and no count. -/
def answer (rule : PriceRule α σ) (bars : List (Bar α)) : Signal :=
  match bars.getLast? with
  | none => .hold 0
  | some bar => ⟨bar.timestamp, (rule.observe (rule.after bars.dropLast) bar.closing).2⟩

theorem after_concat (rule : PriceRule α σ) (bars : List (Bar α)) (bar : Bar α) :
    rule.after (bars ++ [bar]) = (rule.observe (rule.after bars) bar.closing).1 := by
  simp only [after, List.foldl_append, List.foldl_cons, List.foldl_nil]

theorem answer_concat (rule : PriceRule α σ) (bars : List (Bar α)) (bar : Bar α) :
    rule.answer (bars ++ [bar]) =
      ⟨bar.timestamp, (rule.observe (rule.after bars) bar.closing).2⟩ := by
  simp only [answer, List.getLast?_concat, List.dropLast_concat]

theorem take_succ_closings {bars : List (Bar α)} {i : Nat} {bar : Bar α}
    (hbar : bars[i]? = some bar) :
    (bars.map Bar.closing).take (i + 1) = (bars.map Bar.closing).take i ++ [bar.closing] := by
  rw [List.take_add_one, List.getElem?_map, hbar]
  rfl

/-- The answer at a bar of a series is what the state after the bars before makes of its price. -/
theorem answer_take (rule : PriceRule α σ) {bars : List (Bar α)} {i : Nat} {bar : Bar α}
    (hbar : bars[i]? = some bar) :
    rule.answer (bars.take (i + 1)) =
      ⟨bar.timestamp, (rule.observe (rule.after (bars.take i)) bar.closing).2⟩ := by
  have htake : bars.take (i + 1) = bars.take i ++ [bar] := by
    rw [List.take_add_one, hbar]
    rfl
  rw [htake, answer_concat]

/-- Related states cannot be told apart by prices, and a reset leads back to the start. The relation
need not be an equivalence, and a state need not be related to itself. -/
structure Bisimulation (rule : PriceRule α σ) (R : σ → σ → Prop) : Prop where
  start : R rule.start rule.start
  reset : ∀ {s t}, R s t → R (rule.reset s) rule.start
  observe : ∀ {s t} (price : α), R s t →
    R (rule.observe s price).1 (rule.observe t price).1 ∧
      (rule.observe s price).2 = (rule.observe t price).2

/-- The follower has seen these bars, as far as anybody can tell. The bars are not stored anywhere;
the count and the state are the evidence. -/
structure Saw (rule : PriceRule α σ) (R : σ → σ → Prop) (bars : List (Bar α))
    (f : Follower σ) : Prop where
  seen_eq : f.seen = bars.length
  state : R f.state (rule.after bars)

/-! ## What followers saw

One lemma for each thing that is done to a follower. Together they say that `Saw` with some prefix
of the series is an invariant of all calls about it. -/

section follower

variable {rule : PriceRule α σ} {R : σ → σ → Prop} {past bars series : List (Bar α)} {bar : Bar α}
  {f : Follower σ} (hR : rule.Bisimulation R)

include hR

theorem fresh_saw : rule.Saw R [] rule.fresh := ⟨rfl, hR.start⟩

theorem restart_saw (h : rule.Saw R past f) : rule.Saw R [] (rule.restart f) :=
  ⟨rfl, hR.reset h.state⟩

theorem follow_saw (h : rule.Saw R past f) (bar : Bar α) :
    rule.Saw R (past ++ [bar]) (rule.follow f bar).1 ∧
      (rule.follow f bar).2 = (rule.answer (past ++ [bar])).action := by
  obtain ⟨hstate, haction⟩ := hR.observe bar.closing h.state
  refine ⟨⟨?_, ?_⟩, ?_⟩
  · show f.seen + 1 = _
    rw [h.seen_eq, List.length_append]
    rfl
  · rw [after_concat]
    exact hstate
  · rw [answer_concat]
    exact haction

theorem foldl_saw (h : rule.Saw R past f) :
    rule.Saw R (past ++ bars) (bars.foldl (fun f bar => (rule.follow f bar).1) f) := by
  induction bars generalizing past f with
  | nil =>
    rw [List.append_nil]
    exact h
  | cons bar rest ih =>
    rw [← List.singleton_append, ← List.append_assoc]
    exact ih (follow_saw hR h bar).1

/-- A follower catches up with the bars before the last one. Equal counts stand for equal bars,
since both lists are prefixes of one series. With bars of two series in turn this would fail, and
the statement says so by its hypotheses. -/
theorem caughtUp_saw (h : rule.Saw R past f) (hpast : past <+: series)
    (hbars : bars ++ [bar] <+: series) :
    rule.Saw R bars (rule.caughtUp f (bars ++ [bar]).toArray) := by
  unfold caughtUp
  split
  · -- the count fits: the bars seen are those before the last one
    rename_i hcount
    have hlength : past.length = bars.length := by
      rw [List.size_toArray, List.length_append, List.length_singleton, h.seen_eq] at hcount
      omega
    have hprefix : bars <+: series := (List.prefix_append bars [bar]).trans hbars
    have heq : past = bars :=
      (List.prefix_of_prefix_length_le hpast hprefix (Nat.le_of_eq hlength)).eq_of_length hlength
    exact heq ▸ h
  · -- it does not: the follower starts over
    rw [List.pop_toArray, List.dropLast_concat, List.foldl_toArray]
    exact foldl_saw hR (restart_saw hR h)

/-- **A follower answers about a prefix of a series as if it had been asked in order**, whatever
prefix of the series it has seen, and has then seen the one it was asked about. This is the step
that every theorem about calls is an induction over. -/
theorem signalFor_saw (h : rule.Saw R past f) (hpast : past <+: series) (hbars : bars <+: series) :
    rule.Saw R bars (rule.signalFor f bars.toArray).1 ∧
      (rule.signalFor f bars.toArray).2 = rule.answer bars := by
  rcases List.eq_nil_or_concat bars with rfl | ⟨before, bar, rfl⟩
  · exact ⟨restart_saw hR h, rfl⟩
  · rw [List.concat_eq_append] at hbars ⊢
    have hback : (before ++ [bar]).toArray.back? = some bar := by
      rw [List.back?_toArray, List.getLast?_concat]
    obtain ⟨hsaw, haction⟩ := follow_saw hR (caughtUp_saw hR h hpast hbars) bar
    unfold signalFor
    simp only [hback]
    refine ⟨hsaw, ?_⟩
    rw [haction, answer_concat]

/-- Asked at bar after bar, a follower answers in order. The induction is along the bars to come,
with those that were seen growing by one each time. -/
theorem signalsAfter_saw (bars past : List (Bar α)) {f : Follower σ} (h : rule.Saw R past f) :
    rule.Saw R (past ++ bars) (rule.source.signalsAfter past.toArray f bars).1 ∧
      ∀ i, i < bars.length → (rule.source.signalsAfter past.toArray f bars).2[i]? =
        some (rule.answer (past ++ bars.take (i + 1))) := by
  induction bars generalizing past f with
  | nil =>
    refine ⟨?_, fun i hi => absurd hi (Nat.not_lt_zero i)⟩
    rw [List.append_nil]
    exact h
  | cons bar rest ih =>
    -- both lists are prefixes of the bars up to this one
    obtain ⟨hsaw, hanswer⟩ := signalFor_saw hR h (List.prefix_append past [bar])
      (List.prefix_refl (past ++ [bar]))
    obtain ⟨hlast, hrest⟩ := ih (past ++ [bar]) hsaw
    have hpush : past.toArray.push bar = (past ++ [bar]).toArray := List.push_toArray ..
    rw [SignalSource.signalsAfter, hpush]
    refine ⟨?_, ?_⟩
    · rw [List.append_assoc] at hlast
      exact hlast
    · intro i hi
      cases i with
      | zero => exact congrArg some hanswer
      | succ i =>
        have hnext := hrest i (Nat.lt_of_succ_lt_succ hi)
        rw [List.append_assoc] at hnext
        exact hnext

theorem signals_saw (h : rule.Saw R past f) (bars : List (Bar α)) :
    rule.Saw R bars (rule.source.signals f bars).1 ∧
      ∀ i, i < bars.length →
        (rule.source.signals f bars).2[i]? = some (rule.answer (bars.take (i + 1))) :=
  signalsAfter_saw hR bars [] (restart_saw hR h)

/-- **The answers of a rule on closing prices follow from the bars**, whatever it saw before. For a
rule of this form everything about the order of calls is in this. -/
theorem answersBy (h : rule.Saw R past f) : rule.source.AnswersBy rule.answer f :=
  fun bars => (signals_saw hR h bars).2

end follower

end PriceRule

end MarketReplay
