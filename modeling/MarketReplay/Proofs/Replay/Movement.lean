import MarketReplay.Replay.Run

/-!
# What a bar does to the book

`act` decides by three things: the answer, whether something is held, and whether a buy comes to a
quantity at all. `Movement` lists the three outcomes, each with everything that is known in it:

* `idle`: the book stays as it is, because the answer asked for nothing, or could not be met;
* `entry`: the book was flat, the answer was to buy, and the cash covers what is bought;
* `exit`: something was held and the answer was to sell.

**`act_eq_ok_iff` says that the list is exact**, and `act_eq_error` that only a buy can fail, and
only for want of cash. What is proved about runs is proved from these, so that `act`, `enter` and
`leave` are opened in this file and nowhere else.
-/

set_option autoImplicit false

namespace MarketReplay

variable {α : Type}

namespace Portfolio

theorem hasPosition_eq_false {p : Portfolio α} : p.hasPosition = false ↔ p.position = none := by
  unfold hasPosition
  cases p.position <;> simp

theorem hasPosition_eq_true {p : Portfolio α} :
    p.hasPosition = true ↔ ∃ held, p.position = some held := by
  unfold hasPosition
  cases p.position <;> simp

end Portfolio

variable [Scalar α]

/-! ## What is bought and what is sold

A book writes trades and positions field by field. Here they get names, so that a proof about an
entry or an exit is about one position and not about six numbers. -/

/-- The position that a buy at a bar opens. It is defined for every book, also for one that does not
enter: whether it does is decided by the quantity here, and by the cost. -/
def entryPosition (costs : AccountSettings α) (size : α) (bar : Bar α) (book : Portfolio α) :
    Position α :=
  let fill := buyFill costs bar.closing
  let quantity := book.affordable fill size costs.commissionRate
  { entryPrice := fill
    quantity
    entryTimestamp := bar.timestamp
    entryCommission := quantity * fill * costs.commissionRate }

/-- A quantity that can be bought. The second part excludes what a division by nearly nothing can
come to; over exact numbers it always holds. -/
def Buyable (quantity : α) : Prop := 0 < quantity ∧ Scalar.isFinite quantity

namespace Position

/-- What the position took from the cash. -/
def cost (held : Position α) : α :=
  Portfolio.cost held.quantity held.entryPrice held.entryCommission

/-- The trade of the log that stands for the position as long as it is held. It repeats the
position, and that the two stay in step is an invariant (`Portfolio.Kept`). -/
def openTrade (held : Position α) : Trade α where
  entryTimestamp := held.entryTimestamp
  exitTimestamp := none
  side := .buy
  entryPrice := held.entryPrice
  exitPrice := none
  quantity := held.quantity
  commissionPaid := held.entryCommission
  realizedPnl := 0

/-- The commission of selling the position at a price. -/
def exitCommission (held : Position α) (fill rate : α) : α := held.quantity * fill * rate

/-- The trade of the log once the position is sold at a price. -/
def closedTrade (held : Position α) (fill : α) (timestamp : Int) (commission : α) : Trade α :=
  Portfolio.completed held.openTrade fill timestamp commission
    (Portfolio.closingPnl held fill commission)

@[simp] theorem isClosed_openTrade (held : Position α) : held.openTrade.isClosed = false := rfl

@[simp] theorem isClosed_closedTrade (held : Position α) (fill : α) (timestamp : Int)
    (commission : α) : (held.closedTrade fill timestamp commission).isClosed = true := rfl

end Position

namespace Portfolio

/-- The book with a position opened in it. The cash is held at zero from below as the book does it;
when that makes a difference is a question about the numbers. -/
def opened (p : Portfolio α) (held : Position α) : Portfolio α :=
  { p with
    cash := Scalar.max 0 (p.cash - held.cost)
    position := some held
    log := held.openTrade :: p.log }

theorem openPosition_eq {p : Portfolio α} (hflat : p.position = none) (held : Position α) :
    p.openPosition held.quantity held.entryPrice held.entryTimestamp held.entryCommission =
      if p.cash * (1 + cashTolerance) < held.cost then .error (.insufficientCash held.cost p.cash)
      else .ok (p.opened held) := by
  unfold openPosition
  rw [hflat]
  rfl

end Portfolio

/-! ## The three outcomes

Exactly what happens, without the order in which it is found out. The hypotheses of each outcome
exclude the other two, so that the outcome is determined by the book and the answer. -/

/-- What an answer at a bar makes of a book. It is a relation because a movement can fail, and
because a case analysis of it gives each outcome with what is known in it. -/
inductive Movement (costs : AccountSettings α) (size : α) (action : Action) (bar : Bar α)
    (book : Portfolio α) : Portfolio α → Prop
  /-- No movement was asked for, or none was possible. -/
  | idle
      (hbuy : action = .buy → book.position = none →
        ¬Buyable (entryPosition costs size bar book).quantity)
      (hsell : action = .sell → book.position = none) :
      Movement costs size action bar book book
  /-- A position is opened. -/
  | entry
      (hbuy : action = .buy)
      (hflat : book.position = none)
      (hbuyable : Buyable (entryPosition costs size bar book).quantity)
      (hcash : ¬book.cash * (1 + Portfolio.cashTolerance) <
        (entryPosition costs size bar book).cost) :
      Movement costs size action bar book (book.opened (entryPosition costs size bar book))
  /-- The position held is sold. -/
  | exit
      (held : Position α)
      (hsell : action = .sell)
      (hheld : book.position = some held) :
      Movement costs size action bar book (leave costs bar book)

theorem enter_eq {costs : AccountSettings α} {size : α} {bar : Bar α} {book : Portfolio α}
    (hflat : book.position = none)
    (hbuyable : Buyable (entryPosition costs size bar book).quantity) :
    enter costs size bar book =
      if book.cash * (1 + Portfolio.cashTolerance) < (entryPosition costs size bar book).cost then
        .error (.insufficientCash (entryPosition costs size bar book).cost book.cash)
      else .ok (book.opened (entryPosition costs size bar book)) :=
  (if_pos hbuyable).trans (Portfolio.openPosition_eq hflat (entryPosition costs size bar book))

theorem enter_of_not_buyable {costs : AccountSettings α} {size : α} {bar : Bar α}
    {book : Portfolio α} (h : ¬Buyable (entryPosition costs size bar book).quantity) :
    enter costs size bar book = .ok book := if_neg h

theorem leave_eq {costs : AccountSettings α} {bar : Bar α} {book : Portfolio α} {held : Position α}
    (hheld : book.position = some held) :
    leave costs bar book =
      let fill := sellFill costs bar.closing
      let commission := held.exitCommission fill costs.commissionRate
      let pnl := Portfolio.closingPnl held fill commission
      { cash := book.cash + (held.quantity * fill - commission)
        position := none
        realizedPnl := book.realizedPnl + pnl
        log := (Portfolio.completeNewest book.log fun t =>
          Portfolio.completed t fill bar.timestamp commission pnl).1 } := by
  unfold leave Portfolio.closePosition
  rw [hheld]
  rfl

section act

variable {costs : AccountSettings α} {size : α} {action : Action} {bar : Bar α}
  {book book' : Portfolio α}

theorem movement_of_act (h : act costs size action bar book = .ok book') :
    Movement costs size action bar book book' := by
  -- first the position, then the answer, since an answer means something to one of the two only
  cases hp : book.position with
  | none =>
    have hflat := Portfolio.hasPosition_eq_false.mpr hp
    cases action with
    | buy =>
      simp only [act, hflat] at h
      by_cases hb : Buyable (entryPosition costs size bar book).quantity
      · rw [enter_eq hp hb] at h
        split at h
        · cases h
        · rename_i hcash
          cases h
          exact .entry rfl hp hb hcash
      · rw [enter_of_not_buyable hb] at h
        cases h
        exact .idle (fun _ _ => hb) (fun _ => hp)
    | sell =>
      simp only [act, hflat] at h
      cases h
      exact .idle (fun ha => by cases ha) (fun _ => hp)
    | hold =>
      simp only [act] at h
      cases h
      exact .idle (fun ha => by cases ha) (fun ha => by cases ha)
  | some held =>
    have hlong := Portfolio.hasPosition_eq_true.mpr ⟨held, hp⟩
    cases action with
    | buy =>
      simp only [act, hlong] at h
      cases h
      exact .idle (fun _ hflat => by rw [hp] at hflat; cases hflat) (fun ha => by cases ha)
    | sell =>
      simp only [act, hlong] at h
      cases h
      exact .exit held rfl hp
    | hold =>
      simp only [act] at h
      cases h
      exact .idle (fun ha => by cases ha) (fun ha => by cases ha)

theorem act_of_movement (h : Movement costs size action bar book book') :
    act costs size action bar book = .ok book' := by
  cases h with
  | idle hbuy hsell =>
    -- a book is idle for two reasons, and each answer is one of them
    cases hp : book.position with
    | none =>
      have hflat := Portfolio.hasPosition_eq_false.mpr hp
      cases action with
      | buy => simp only [act, hflat, enter_of_not_buyable (hbuy rfl hp)]
      | sell => simp only [act, hflat]
      | hold => rfl
    | some held =>
      have hlong := Portfolio.hasPosition_eq_true.mpr ⟨held, hp⟩
      cases action with
      | buy => simp only [act, hlong]
      | sell => exact absurd (hsell rfl) (by rw [hp]; simp)
      | hold => rfl
  | entry hbuy hflat hbuyable hcash =>
    subst hbuy
    simp only [act, Portfolio.hasPosition_eq_false.mpr hflat]
    rw [enter_eq hflat hbuyable, if_neg hcash]
  | exit held hsell hheld =>
    subst hsell
    simp only [act, Portfolio.hasPosition_eq_true.mpr ⟨held, hheld⟩]

/-- **The three outcomes are all that a bar can do.** Facts about runs are proved by these cases,
and `act` is not opened again. -/
theorem act_eq_ok_iff :
    act costs size action bar book = .ok book' ↔ Movement costs size action bar book book' :=
  ⟨movement_of_act, act_of_movement⟩

/-- Only a buy fails, and only when its cost passes the cash by more than the tolerance. Which of
the two is larger is all that a proof needs to exclude failures. -/
theorem act_eq_error {fault : Fault α} (h : act costs size action bar book = .error fault) :
    Buyable (entryPosition costs size bar book).quantity ∧
      book.cash * (1 + Portfolio.cashTolerance) < (entryPosition costs size bar book).cost := by
  cases hp : book.position with
  | some held =>
    -- a book with a position never opens another, whatever the answer
    have hlong := Portfolio.hasPosition_eq_true.mpr ⟨held, hp⟩
    cases action <;> simp only [act, hlong] at h <;> cases h
  | none =>
    have hflat := Portfolio.hasPosition_eq_false.mpr hp
    cases action with
    | sell | hold => simp only [act, hflat] at h; cases h
    | buy =>
      simp only [act, hflat] at h
      by_cases hb : Buyable (entryPosition costs size bar book).quantity
      · rw [enter_eq hp hb] at h
        split at h
        · rename_i hcash
          exact ⟨hb, hcash⟩
        · cases h
      · rw [enter_of_not_buyable hb] at h
        cases h

end act

end MarketReplay
