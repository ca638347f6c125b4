import MarketReplay.Proofs.Replay.Events

/-!
# Two runs side by side

Two runs that get the same answers, at the same times but otherwise under different conditions: at
other costs, or at other prices. What one of them says about the other is a relation between their
sessions, and **`Session.walk_related`** is the rule for it: a relation that every pair of steps
keeps, at one answer, holds between the sessions that the runs end with.

A pair of steps moves two books. If both hold something or neither does, and if a buy comes to a
quantity in both or in neither, then the two movements are of the same kind
(`Movement.paired`), which leaves three cases of the nine.
-/

set_option autoImplicit false

namespace MarketReplay

variable {α σ τ : Type}

/-- The actions that a source asks for at the bars of a series, after a reset. The times of the
signals are left out, since two series may have different ones. -/
def actionsAlong (source : SignalSource α σ) (state : σ) (bars : List (Bar α)) : List Action :=
  (source.signals state bars).2.map Signal.action

theorem SignalSource.AnswersBy.actionsAlong_eq {source : SignalSource α σ}
    {answer : List (Bar α) → Signal} {state state' : σ} (h : source.AnswersBy answer state)
    (h' : source.AnswersBy answer state') (bars : List (Bar α)) :
    actionsAlong source state bars = actionsAlong source state' bars := by
  unfold actionsAlong
  rw [h.signals_eq h' bars]

variable [Scalar α]

theorem actionsAlong_at {source : SignalSource α σ} {costs : AccountSettings α} {state : σ}
    {bars : List (Bar α)} {last : Session α σ}
    (hwalk : (Session.start costs (source.reset state)).walk source costs bars = (last, none))
    (bar : Bar α) (rest : List (Bar α)) :
    (actionsAlong source state (bars ++ bar :: rest))[bars.length]? =
      some (last.ask source bar).2 := by
  have hevent := answered_at hwalk bar rest
  rw [answered, List.getElem?_zip_eq_some] at hevent
  exact hevent.2

/-! ## The rule

The relation may be any, and may speak of the two kinds of states. It gets the same answer at every
bar from the hypothesis on the two lists of actions. -/

/-- **What every pair of steps keeps, a pair of runs keeps.** Both runs get the same answers, the
second one along the bars that `reprice` makes of those of the first. Both have to succeed, and the
step may use that its bar is one of the series. -/
theorem Session.walk_related (reprice : Bar α → Bar α) {source₁ : SignalSource α σ}
    {source₂ : SignalSource α τ} {costs₁ costs₂ : AccountSettings α} {state₁ : σ} {state₂ : τ}
    {bars : List (Bar α)} {last₁ : Session α σ} {last₂ : Session α τ}
    {P : Session α σ → Session α τ → Prop}
    (hactions : actionsAlong source₁ state₁ bars = actionsAlong source₂ state₂ (bars.map reprice))
    (hwalk₁ : (Session.start costs₁ (source₁.reset state₁)).walk source₁ costs₁ bars =
      (last₁, none))
    (hwalk₂ : (Session.start costs₂ (source₂.reset state₂)).walk source₂ costs₂ (bars.map reprice) =
      (last₂, none))
    (hstart : P (.start costs₁ (source₁.reset state₁)) (.start costs₂ (source₂.reset state₂)))
    (hstep : ∀ bar ∈ bars, ∀ s t s' t', P s t →
      (s.ask source₁ bar).2 = (t.ask source₂ (reprice bar)).2 →
      s.step source₁ costs₁ bar = (s', none) →
      t.step source₂ costs₂ (reprice bar) = (t', none) → P s' t') :
    P last₁ last₂ := by
  suffices (Session.start costs₁ (source₁.reset state₁)).walk source₁ costs₁ bars = (last₁, none) ∧
      ∀ t, (Session.start costs₂ (source₂.reset state₂)).walk source₂ costs₂ (bars.map reprice) =
        (t, none) → P last₁ t from this.2 last₂ hwalk₂
  -- along the first run, for whatever session the second one has come to
  refine Session.walk_invariant
    (P := fun past s =>
      (Session.start costs₁ (source₁.reset state₁)).walk source₁ costs₁ past = (s, none) ∧
        ∀ t, (Session.start costs₂ (source₂.reset state₂)).walk source₂ costs₂
          (past.map reprice) = (t, none) → P s t) ⟨walk_nil, ?_⟩ ?_ hwalk₁
  · intro t ht
    rw [List.map_nil, walk_nil, Prod.mk.injEq] at ht
    exact ht.1 ▸ hstart
  · rintro past bar rest s s' hbars ⟨hpast, hrelated⟩ hs
    refine ⟨walk_concat hpast hs, ?_⟩
    intro t' ht'
    rw [List.map_append, walk_append_eq_iff] at ht'
    obtain ⟨t, ht, hlast⟩ := ht'
    obtain ⟨t₁, hstep₂, hnil⟩ := walk_cons_eq_iff.mp hlast
    rw [List.map_nil, walk_nil, Prod.mk.injEq] at hnil
    obtain ⟨rfl, -⟩ := hnil
    have hanswer : (s.ask source₁ bar).2 = (t.ask source₂ (reprice bar)).2 := by
      have hfirst := actionsAlong_at hpast bar rest
      have hsecond := actionsAlong_at ht (reprice bar) (rest.map reprice)
      rw [hbars, List.map_append, List.map_cons] at hactions
      rw [hactions, ← List.length_map reprice, hsecond] at hfirst
      exact (Option.some.inj hfirst).symm
    exact hstep bar (by rw [hbars]; simp) s t s' t₁ (hrelated t ht) hanswer hs hstep₂

/-! ## Pairs of movements

Both comparisons of runs, at other costs and in other units, go through the same three cases. -/

/-- What one answer makes of two books, at a bar for each. There is no case in which one book moves
and the other does not, and this is what has to be shown before it can be used. -/
inductive PairedMovement (costs₁ costs₂ : AccountSettings α) (size : α) (bar₁ bar₂ : Bar α)
    (p q : Portfolio α) : Portfolio α → Portfolio α → Prop
  /-- Neither book is moved. -/
  | idle : PairedMovement costs₁ costs₂ size bar₁ bar₂ p q p q
  /-- A position is opened in both. -/
  | entry
      (hflat₁ : p.position = none)
      (hflat₂ : q.position = none)
      (hbuyable₁ : Buyable (entryPosition costs₁ size bar₁ p).quantity)
      (hbuyable₂ : Buyable (entryPosition costs₂ size bar₂ q).quantity) :
      PairedMovement costs₁ costs₂ size bar₁ bar₂ p q
        (p.opened (entryPosition costs₁ size bar₁ p)) (q.opened (entryPosition costs₂ size bar₂ q))
  /-- What is held is sold in both. -/
  | exit
      (held₁ held₂ : Position α)
      (hheld₁ : p.position = some held₁)
      (hheld₂ : q.position = some held₂) :
      PairedMovement costs₁ costs₂ size bar₁ bar₂ p q (leave costs₁ bar₁ p) (leave costs₂ bar₂ q)

/-- Books that are open together, and can be opened together, are moved together. The second
condition is asked for flat books only; at a bar where something is held no quantity matters. -/
theorem Movement.paired {costs₁ costs₂ : AccountSettings α} {size : α} {action : Action}
    {bar₁ bar₂ : Bar α} {p p' q q' : Portfolio α}
    (h₁ : Movement costs₁ size action bar₁ p p') (h₂ : Movement costs₂ size action bar₂ q q')
    (hflat : p.position = none ↔ q.position = none)
    (hbuyable : p.position = none → (Buyable (entryPosition costs₁ size bar₁ p).quantity ↔
      Buyable (entryPosition costs₂ size bar₂ q).quantity)) :
    PairedMovement costs₁ costs₂ size bar₁ bar₂ p q p' q' := by
  cases h₁ with
  | idle hbuy hsell =>
    cases h₂ with
    | idle => exact .idle
    | entry haction hflat₂ hbuyable₂ _ =>
      have hflat₁ := hflat.mpr hflat₂
      exact absurd ((hbuyable hflat₁).mpr hbuyable₂) (hbuy haction hflat₁)
    -- a sell finds something in one book and nothing in the other
    | exit held haction hheld =>
      have hflat₂ := hflat.mp (hsell haction)
      rw [hheld] at hflat₂
      cases hflat₂
  | entry haction hflat₁ hbuyable₁ _ =>
    cases h₂ with
    | idle hbuy _ =>
      exact absurd ((hbuyable hflat₁).mp hbuyable₁) (hbuy haction (hflat.mp hflat₁))
    | entry _ hflat₂ hbuyable₂ _ => exact .entry hflat₁ hflat₂ hbuyable₁ hbuyable₂
    | exit _ haction' _ =>
      rw [haction] at haction'
      cases haction'
  | exit held₁ haction hheld₁ =>
    cases h₂ with
    | idle _ hsell =>
      have hflat₁ := hflat.mpr (hsell haction)
      rw [hheld₁] at hflat₁
      cases hflat₁
    | entry haction' _ _ _ =>
      rw [haction] at haction'
      cases haction'
    | exit held₂ _ hheld₂ => exact .exit held₁ held₂ hheld₁ hheld₂

end MarketReplay
