import MarketReplay.Proofs.Replay.Movement

/-!
# The log repeats the position

A position that is held stands in the book twice: as the position, and as the newest trade of the
log, which is open. Nothing in the program compares the two. Selling reads the position, and then
completes whatever trade is the newest; it would leave the log alone if that trade were closed,
although cash and position have changed by then.

`Portfolio.Recorded` says that the two agree: the newest trade is the record of the position, and
all others are closed. **With that a sale is what it should be** (`closePosition_of_held`): the
trade of the position gets its exit, and the other trades stay as they are.
-/

set_option autoImplicit false

namespace MarketReplay

variable {α : Type} [Scalar α]

namespace Portfolio

/-- The log is the open trade of the position held, if there is one, before closed trades. It is an
equation that mentions the log on both sides, so that the closed trades need no name of their
own. -/
def Recorded (p : Portfolio α) : Prop :=
  p.log = p.position.toList.map Position.openTrade ++ p.log.filter Trade.isClosed

/-- The book with its position sold, as it should be. Whether selling makes this of a book depends
on its log. -/
def sold (p : Portfolio α) (held : Position α) (price : α) (timestamp : Int) (commission : α) :
    Portfolio α where
  cash := p.cash + (held.quantity * price - commission)
  position := none
  realizedPnl := p.realizedPnl + closingPnl held price commission
  log := held.closedTrade price timestamp commission :: p.log.filter Trade.isClosed

variable {p : Portfolio α} {held : Position α} {price commission : α} {timestamp : Int}

theorem closed_opened (p : Portfolio α) (held : Position α) :
    (p.opened held).log.filter Trade.isClosed = p.log.filter Trade.isClosed :=
  List.filter_cons_of_neg (by simp)

theorem closed_sold :
    (p.sold held price timestamp commission).log.filter Trade.isClosed =
      held.closedTrade price timestamp commission :: p.log.filter Trade.isClosed := by
  unfold sold
  rw [List.filter_cons_of_pos (by simp), List.filter_filter]
  simp only [Bool.and_self]

namespace Recorded

theorem log_of_held (h : p.Recorded) (hheld : p.position = some held) :
    p.log = held.openTrade :: p.log.filter Trade.isClosed := by
  unfold Recorded at h
  rw [hheld] at h
  exact h

theorem log_of_flat (h : p.Recorded) (hflat : p.position = none) :
    p.log = p.log.filter Trade.isClosed := by
  unfold Recorded at h
  rw [hflat] at h
  exact h

theorem ofCapital (capital : α) : (Portfolio.ofCapital capital).Recorded := rfl

theorem opened (h : p.Recorded) (hflat : p.position = none) : (p.opened held).Recorded := by
  unfold Recorded
  rw [closed_opened, ← h.log_of_flat hflat]
  rfl

theorem sold : (p.sold held price timestamp commission).Recorded := by
  unfold Recorded
  rw [closed_sold]
  rfl

theorem trades_eq (h : p.Recorded) :
    p.trades = p.trades.filter Trade.isClosed ++ p.position.toList.map Position.openTrade := by
  have hlog := congrArg List.reverse (show p.log = _ from h)
  rw [List.reverse_append, ← List.filter_reverse] at hlog
  cases hp : p.position with
  | none => rwa [hp] at hlog
  | some held => rwa [hp] at hlog

end Recorded

/-! ## What the two movements make of a book

Equations for opening and closing, one for each case, on books that are `Recorded`. -/

theorem openPosition_of_held (hheld : p.position = some held) (quantity : α) :
    p.openPosition quantity price timestamp commission =
      .error (.positionAlreadyOpen held.entryTimestamp) := by
  unfold openPosition
  rw [hheld]

theorem openPosition_of_covered (hflat : p.position = none)
    (hcash : ¬p.cash * (1 + cashTolerance) < held.cost) :
    p.openPosition held.quantity held.entryPrice held.entryTimestamp held.entryCommission =
      .ok (p.opened held) := by
  rw [openPosition_eq hflat held, if_neg hcash]

theorem closePosition_of_flat (hflat : p.position = none) :
    p.closePosition price timestamp commission = (p, none) := by
  unfold closePosition
  rw [hflat]

theorem Recorded.completeNewest_of_held (h : p.Recorded) (hheld : p.position = some held)
    (complete : Trade α → Trade α) :
    completeNewest p.log complete =
      (complete held.openTrade :: p.log.filter Trade.isClosed, some (complete held.openTrade)) :=
  calc completeNewest p.log complete
      = completeNewest (held.openTrade :: p.log.filter Trade.isClosed) complete :=
        congrArg (completeNewest · complete) (h.log_of_held hheld)
    _ = _ := rfl

/-- **A sale completes the trade of the position.** The log is searched for its newest trade only;
that this is the right one is what `Recorded` says. -/
theorem Recorded.closePosition_of_held (h : p.Recorded) (hheld : p.position = some held) :
    p.closePosition price timestamp commission =
      (p.sold held price timestamp commission,
        some (held.closedTrade price timestamp commission)) := by
  unfold closePosition
  rw [hheld]
  simp only [h.completeNewest_of_held hheld]
  rfl

end Portfolio

end MarketReplay
