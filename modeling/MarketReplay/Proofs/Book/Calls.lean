import MarketReplay.Proofs.Book.Recorded

/-!
# A book under any calls

A book is called from outside in any order: to buy and to sell, with whatever numbers, and to be
asked what is affordable and what it is worth. `Portfolio.Turn` lists what a call can come to, each
outcome with everything that is known in it, and `turn_perform` says that the list is complete as
long as the log repeats the position. Every outcome keeps it so (`Turn.recorded`), and therefore
**a book is consistent whatever it was called with** (`log_keeps_position`): no number enters into
it, and a `NaN` is as good as any.

The movements themselves are written down a second time, as writes one after another that stop at a
failure and leave what was written by then (`buyInPlace`, `sellInPlace`). There a sale clears the
position and moves the cash before it looks at the log. The second form comes to the first
(`run_buyInPlace`, `run_sellInPlace`), which says that a refusal comes before the first write, and
that in a consistent book the one failure behind a write does not occur.
-/

set_option autoImplicit false

namespace MarketReplay

variable {α : Type} [Scalar α]

/-! ## Calls

The calls as data, with their answers. A run makes only some of them, with numbers that it has
computed; here they may come in any order and with any numbers. -/

/-- What a book may be called for: to buy, to sell, and to say what is affordable or what it is
worth. The last two only read. -/
inductive BookCall (α : Type) where
  | buy (quantity price : α) (timestamp : Int) (commission : α)
  | sell (price : α) (timestamp : Int) (commission : α)
  | afford (fill size commissionRate : α)
  | mark (price : α)

inductive BookAnswer (α : Type) where
  | bought
  | refused (fault : Fault α)
  /-- What was sold, if anything was. -/
  | sold (trade : Option (Trade α))
  | affordable (quantity : α)
  | worth (equity unrealized : α)

def BookAnswer.isBought : BookAnswer α → Bool
  | bought => true
  | _ => false

namespace Portfolio

/-- The book after a call, and the answer. A call that is refused returns the book it was given;
that nothing has been written by then is what the second form of the movements says. -/
def perform (p : Portfolio α) : BookCall α → Portfolio α × BookAnswer α
  | .buy quantity price timestamp commission =>
    match p.openPosition quantity price timestamp commission with
    | .ok p' => (p', .bought)
    | .error fault => (p, .refused fault)
  | .sell price timestamp commission =>
    let (p', trade) := p.closePosition price timestamp commission
    (p', .sold trade)
  | .afford fill size commissionRate => (p, .affordable (p.affordable fill size commissionRate))
  | .mark price => (p, .worth (p.equity price) (p.unrealizedPnl price))

/-- The book after some calls. The answers are left out here, since what is said of the book is said
whatever the calls have returned. -/
def after (p : Portfolio α) (calls : List (BookCall α)) : Portfolio α :=
  calls.foldl (fun p call => (p.perform call).1) p

/-- The answers to some calls, each given by the book that the calls before it have left. -/
def answers (p : Portfolio α) : List (BookCall α) → List (BookAnswer α)
  | [] => []
  | call :: rest => (p.perform call).2 :: (p.perform call).1.answers rest

/-! ## Movements as writes

The statements of the two movements in their order, with a failure wherever the program may leave. A
write before such a place stays written. -/

/-- Opening a position, write by write, as a machine does that has one book and changes it. Both
reasons to refuse stand in front of the first write. -/
def buyInPlace (quantity price : α) (timestamp : Int) (commission : α) :
    ExceptT (Fault α) (StateM (Portfolio α)) Unit := do
  if let some held := (← get).position then
    throw (.positionAlreadyOpen held.entryTimestamp)
  let cost := cost quantity price commission
  let cash := (← get).cash
  if cash * (1 + cashTolerance) < cost then
    throw (.insufficientCash cost cash)
  let held : Position α :=
    { entryPrice := price, quantity, entryTimestamp := timestamp, entryCommission := commission }
  modify fun p => { p with cash := Scalar.max 0 (p.cash - cost) }
  modify fun p => { p with position := some held }
  modify fun p => { p with log := held.openTrade :: p.log }

/-- Selling the position, write by write. The log is looked at last, when the position is cleared
and the cash has moved; a log without an open trade would stop the sale half done. -/
def sellInPlace (price : α) (timestamp : Int) (commission : α) :
    OptionT (StateM (Portfolio α)) (Trade α) := do
  let some held := (← get).position | failure
  modify fun p => { p with position := none }
  let pnl := closingPnl held price commission
  modify fun p => { p with cash := p.cash + (held.quantity * price - commission) }
  modify fun p => { p with realizedPnl := p.realizedPnl + pnl }
  let newest :: earlier := (← get).log | failure
  if newest.isClosed then failure
  let trade := completed newest price timestamp commission pnl
  modify fun p => { p with log := trade :: earlier }
  return trade

section

variable (p : Portfolio α) (quantity price : α) (timestamp : Int) (commission : α)

/-- Written out, opening a position comes to the same; a refusal has written nothing. The book that
is returned with a fault is the book as it was, field by field. -/
theorem run_buyInPlace :
    (buyInPlace quantity price timestamp commission).run.run p =
      match p.openPosition quantity price timestamp commission with
      | .ok p' => (.ok (), p')
      | .error fault => (.error fault, p) := by
  obtain ⟨cash, position, realizedPnl, log⟩ := p
  cases position with
  | some held => rfl
  | none =>
    by_cases hcash : cash * (1 + cashTolerance) < cost quantity price commission
    · have hrefused : openPosition ⟨cash, none, realizedPnl, log⟩ quantity price timestamp
          commission = .error (.insufficientCash (cost quantity price commission) cash) :=
        if_pos hcash
      rw [hrefused]
      -- without a position the check on the cash is what runs first
      show (ite _ _ _ : ExceptT (Fault α) (StateM (Portfolio α)) Unit).run.run _ = _
      rw [if_pos hcash]
      rfl
    · have hopened : openPosition ⟨cash, none, realizedPnl, log⟩ quantity price timestamp
          commission = .ok (opened ⟨cash, none, realizedPnl, log⟩
            ⟨price, quantity, timestamp, commission⟩) :=
        if_neg hcash
      rw [hopened]
      show (ite _ _ _ : ExceptT (Fault α) (StateM (Portfolio α)) Unit).run.run _ = _
      rw [if_neg hcash]
      rfl

/-- Written out, selling comes to the same, and also where the log refuses it too late. So the first
form, too, has moved the cash by then, and nothing is hidden in it. -/
theorem run_sellInPlace :
    (sellInPlace price timestamp commission).run.run p =
      ((p.closePosition price timestamp commission).2,
        (p.closePosition price timestamp commission).1) := by
  obtain ⟨cash, position, realizedPnl, log⟩ := p
  cases position with
  | none => rfl
  | some held =>
    cases log with
    | nil => rfl
    | cons newest earlier =>
      -- whether the newest trade has an exit is all that the program looks at
      obtain ⟨entryTimestamp, exitTimestamp, side, entryPrice, exitPrice⟩ := newest
      cases exitTimestamp <;> rfl

end

/-! ## What a call comes to

One case for each outcome. The equations of the movements are used here and not again. -/

/-- What a call makes of a book whose log repeats its position. In such a book a sale always
completes a trade, so that there is no case of a sale that failed halfway. -/
inductive Turn (p : Portfolio α) : BookCall α → Portfolio α → BookAnswer α → Prop
  /-- A position is opened. -/
  | bought (held : Position α)
      (hflat : p.position = none)
      (hcash : ¬p.cash * (1 + cashTolerance) < held.cost) :
      Turn p (.buy held.quantity held.entryPrice held.entryTimestamp held.entryCommission)
        (p.opened held) .bought
  /-- A position stays closed, since there is another or the cash falls short. -/
  | refused (quantity price : α) (timestamp : Int) (commission : α) (fault : Fault α)
      (hfault : p.openPosition quantity price timestamp commission = .error fault) :
      Turn p (.buy quantity price timestamp commission) p (.refused fault)
  /-- The position held is sold. -/
  | sold (held : Position α) (price : α) (timestamp : Int) (commission : α)
      (hheld : p.position = some held) :
      Turn p (.sell price timestamp commission) (p.sold held price timestamp commission)
        (.sold (some (held.closedTrade price timestamp commission)))
  /-- There is nothing to sell. -/
  | unsold (price : α) (timestamp : Int) (commission : α)
      (hflat : p.position = none) :
      Turn p (.sell price timestamp commission) p (.sold none)
  | afforded (fill size commissionRate : α) :
      Turn p (.afford fill size commissionRate) p
        (.affordable (p.affordable fill size commissionRate))
  | marked (price : α) :
      Turn p (.mark price) p (.worth (p.equity price) (p.unrealizedPnl price))

/-- **The outcomes listed are all that a call can come to.** The numbers decide which of them it is,
by two comparisons, and appear in no other way. -/
theorem turn_perform {p : Portfolio α} (h : p.Recorded) (call : BookCall α) :
    Turn p call (p.perform call).1 (p.perform call).2 := by
  cases call with
  | buy quantity price timestamp commission =>
    cases hopen : p.openPosition quantity price timestamp commission with
    | error fault =>
      simp only [perform, hopen]
      exact .refused quantity price timestamp commission fault hopen
    | ok p' =>
      simp only [perform, hopen]
      cases hp : p.position with
      | some held =>
        rw [openPosition_of_held hp] at hopen
        cases hopen
      | none =>
        -- flat, so that only the comparison with the cash is left
        rw [openPosition_eq hp ⟨price, quantity, timestamp, commission⟩] at hopen
        split at hopen
        · cases hopen
        · rename_i hcash
          cases hopen
          exact .bought ⟨price, quantity, timestamp, commission⟩ hp hcash
  | sell price timestamp commission =>
    cases hp : p.position with
    | none =>
      simp only [perform, closePosition_of_flat hp]
      exact .unsold price timestamp commission hp
    | some held =>
      simp only [perform, h.closePosition_of_held hp]
      exact .sold held price timestamp commission hp
  | afford fill size commissionRate => exact .afforded fill size commissionRate
  | mark price => exact .marked price

omit [Scalar α] in
theorem filter_trades (p : Portfolio α) :
    p.trades.filter Trade.isClosed = (p.log.filter Trade.isClosed).reverse :=
  List.filter_reverse ..

namespace Turn

variable {p p' : Portfolio α} {call : BookCall α} {answer : BookAnswer α}

theorem recorded (h : p.Recorded) (hturn : Turn p call p' answer) : p'.Recorded := by
  cases hturn with
  | bought held hflat _ => exact h.opened hflat
  | sold => exact Recorded.sold
  | refused | unsold | afforded | marked => exact h

theorem length_log (h : p.Recorded) (hturn : Turn p call p' answer) :
    p'.log.length = p.log.length + if answer.isBought then 1 else 0 := by
  cases hturn with
  | bought => rfl
  | sold held _ _ _ hheld => exact (congrArg List.length (h.log_of_held hheld)).symm
  | refused | unsold | afforded | marked => rfl

theorem closed_prefix (hturn : Turn p call p' answer) :
    p.trades.filter Trade.isClosed <+: p'.trades.filter Trade.isClosed := by
  rw [filter_trades, filter_trades]
  cases hturn with
  | bought held _ _ => exact (closed_opened p held).symm ▸ List.prefix_rfl
  | sold =>
    rw [closed_sold, List.reverse_cons]
    exact List.prefix_append ..
  | refused | unsold | afforded | marked => exact List.prefix_rfl

end Turn

/-! ## Any calls

Each fact about a single call, carried along a list of calls. The log repeats the position at the
start, which is what all of them need. -/

namespace Recorded

variable {p : Portfolio α}

theorem after (h : p.Recorded) (calls : List (BookCall α)) : (p.after calls).Recorded := by
  induction calls generalizing p with
  | nil => exact h
  | cons call rest ih => exact ih ((turn_perform h call).recorded h)

theorem length_log_after (h : p.Recorded) (calls : List (BookCall α)) :
    (p.after calls).log.length =
      p.log.length + (p.answers calls).countP BookAnswer.isBought := by
  induction calls generalizing p with
  | nil => rfl
  | cons call rest ih =>
    have hturn := turn_perform h call
    calc (p.after (call :: rest)).log.length
        = (p.perform call).1.log.length +
            ((p.perform call).1.answers rest).countP BookAnswer.isBought :=
          ih (hturn.recorded h)
      _ = p.log.length + (p.answers (call :: rest)).countP BookAnswer.isBought := by
          rw [hturn.length_log h, answers, List.countP_cons]
          omega

theorem closed_prefix_after (h : p.Recorded) (calls : List (BookCall α)) :
    p.trades.filter Trade.isClosed <+: (p.after calls).trades.filter Trade.isClosed := by
  induction calls generalizing p with
  | nil => exact List.prefix_rfl
  | cons call rest ih =>
    have hturn := turn_perform h call
    exact hturn.closed_prefix.trans (ih (hturn.recorded h))

/-- The closed trades stand in the log in front of the open one. A closed trade therefore keeps its
place for good. -/
theorem getElem?_trades_iff (h : p.Recorded) {i : Nat} {t : Trade α} (ht : t.isClosed = true) :
    p.trades[i]? = some t ↔ (p.trades.filter Trade.isClosed)[i]? = some t := by
  have hopen : ∀ t' ∈ p.position.toList.map Position.openTrade, t' ≠ t := by
    intro t' ht' heq
    obtain ⟨held, -, rfl⟩ := List.mem_map.mp ht'
    rw [← heq] at ht
    cases ht
  have htrades := h.trades_eq
  -- the closed trades get a name, since the equation has them on both sides
  generalize p.trades.filter Trade.isClosed = closed at htrades ⊢
  rw [htrades]
  constructor
  · intro hi
    rcases Nat.lt_or_ge i closed.length with hlt | hge
    · rwa [List.getElem?_append_left hlt] at hi
    · rw [List.getElem?_append_right hge] at hi
      exact absurd rfl (hopen t (List.mem_of_getElem? hi))
  · intro hi
    rw [List.getElem?_append_left (List.getElem?_eq_some_iff.mp hi).1]
    exact hi

end Recorded

/-- The log of a book agrees with its position. It is stated of the trades in the order of time, as
they are returned, and without the way in which the log is kept. -/
structure Consistent (p : Portfolio α) : Prop where
  /-- Something is held when the last trade is open, and only then. -/
  held_iff : p.hasPosition = true ↔ ∃ t, p.trades.getLast? = some t ∧ t.isClosed = false
  earlier_closed : ∀ t ∈ p.trades.dropLast, t.isClosed = true
  /-- What is held is what the last trade says. -/
  entry_eq : ∀ held, p.position = some held → ∃ t, p.trades.getLast? = some t ∧
    t.entryPrice = held.entryPrice ∧ t.quantity = held.quantity ∧
    t.entryTimestamp = held.entryTimestamp ∧ t.commissionPaid = held.entryCommission

theorem Recorded.consistent {p : Portfolio α} (h : p.Recorded) : p.Consistent := by
  have hclosed : ∀ t ∈ p.trades.filter Trade.isClosed, t.isClosed = true :=
    fun t ht => (List.mem_filter.mp ht).2
  have htrades := h.trades_eq
  -- with a name for the closed trades, the log is this list and the open trade, if there is one
  generalize p.trades.filter Trade.isClosed = closed at hclosed htrades
  cases hp : p.position with
  | none =>
    rw [hp, Option.toList_none, List.map_nil, List.append_nil] at htrades
    rw [← htrades] at hclosed
    refine ⟨⟨fun hheld => ?_, ?_⟩, fun t ht => ?_, fun held hheld => ?_⟩
    · rw [hasPosition_eq_false.mpr hp] at hheld
      cases hheld
    · rintro ⟨t, hlast, hopen⟩
      rw [hclosed t (List.mem_of_getLast? hlast)] at hopen
      cases hopen
    · exact hclosed t (List.dropLast_subset _ ht)
    · rw [hp] at hheld
      cases hheld
  | some held =>
    rw [hp] at htrades
    have hlast : p.trades.getLast? = some held.openTrade := by
      rw [htrades]
      exact List.getLast?_concat ..
    refine ⟨⟨fun _ => ⟨_, hlast, rfl⟩, fun _ => ?_⟩, fun t ht => ?_, fun held' hheld => ?_⟩
    · exact hasPosition_eq_true.mpr ⟨held, hp⟩
    · refine hclosed t ?_
      rw [htrades] at ht
      simpa using ht
    · rw [hp] at hheld
      cases hheld
      exact ⟨_, hlast, rfl, rfl, rfl, rfl⟩

end Portfolio

open Portfolio in
/-- **A book stays consistent whatever it is called with**, and no call does half of its work. The
log and the position agree after any calls; there are as many trades as positions were opened, and
a trade once closed stays where and as it is under all later calls. A sale returns a trade exactly
when something is held. An order to buy that is refused, and a sale without a position, have written
nothing when they stop. -/
theorem log_keeps_position (capital : α) (calls : List (BookCall α)) :
    let start := Portfolio.ofCapital capital
    let p := start.after calls
    p.Consistent ∧
      p.trades.length = (start.answers calls).countP BookAnswer.isBought ∧
      (∀ (later : List (BookCall α)) (i : Nat) (t : Trade α), p.trades[i]? = some t →
        t.isClosed = true → (p.after later).trades[i]? = some t) ∧
      (∀ price timestamp commission,
        (p.closePosition price timestamp commission).2.isSome = p.hasPosition) ∧
      (∀ quantity price timestamp commission fault,
        p.openPosition quantity price timestamp commission = .error fault →
          (buyInPlace quantity price timestamp commission).run.run p = (.error fault, p)) ∧
      ∀ price timestamp commission, p.hasPosition = false →
        p.closePosition price timestamp commission = (p, none) ∧
          (sellInPlace price timestamp commission).run.run p = (none, p) := by
  intro start p
  have h : p.Recorded := (Recorded.ofCapital capital).after calls
  refine ⟨h.consistent, ?_, ?_, ?_, ?_, ?_⟩
  · rw [trades, List.length_reverse]
    exact ((Recorded.ofCapital capital).length_log_after calls).trans (Nat.zero_add _)
  · intro later i t hi ht
    rw [h.getElem?_trades_iff ht] at hi
    rw [(h.after later).getElem?_trades_iff ht]
    -- closed trades keep their places among the closed ones, and these stand in front
    obtain ⟨more, hmore⟩ := h.closed_prefix_after later
    rw [← hmore, List.getElem?_append_left (List.getElem?_eq_some_iff.mp hi).1]
    exact hi
  · intro price timestamp commission
    cases hp : p.position with
    | none => rw [closePosition_of_flat hp, hasPosition_eq_false.mpr hp]; rfl
    | some held =>
      rw [h.closePosition_of_held hp, hasPosition_eq_true.mpr ⟨held, hp⟩]
      rfl
  · intro quantity price timestamp commission fault hfault
    rw [run_buyInPlace, hfault]
  · intro price timestamp commission hflat
    have hclose : p.closePosition price timestamp commission = (p, none) :=
      closePosition_of_flat (hasPosition_eq_false.mp hflat)
    refine ⟨hclose, ?_⟩
    rw [run_sellInPlace, hclose]

end MarketReplay
