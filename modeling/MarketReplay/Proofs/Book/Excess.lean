import MarketReplay.Proofs.Book.Calls
import MarketReplay.Proofs.Replay.Accounting

/-!
# Money from the tolerance

An order to buy may cost a little more than there is in cash: up to a tolerance it is met, and then
no cash is left. What it cost above the cash was paid by nobody. Equity and accounts come apart by
this amount, and by nothing else that a book can be called with.

The difference between the two does not depend on the price at which the position is valued. It is
cash and outlay together, less the capital and what the closed trades made (`excess_eq`), and a call
raises it by at most the tolerance of the cash it overdraws (`Turn.unaccounted`). Summed up,
**the excess lies between zero and the tolerance of all the cash that was overdrawn**
(`excess_bounded`). Nothing is asked of the numbers: with cash below zero an order that costs more
than the cash is never met, since the tolerance is then below zero as well.
-/

set_option autoImplicit false

namespace MarketReplay

namespace Portfolio

/-! ## Overdrawn cash

When a call costs more than there is, and how much there was. The amount is the cash before the
call, which the tolerance is a fraction of. -/

/-- The cash that a call overdraws: all there is, when a position is opened that costs more. A call
that is refused overdraws nothing, however much it would have cost. -/
def overdraft? (p : Portfolio ℚ) : BookCall ℚ → Option ℚ
  | .buy quantity price timestamp commission =>
    if (p.openPosition quantity price timestamp commission).isOk ∧
        p.cash < cost quantity price commission then
      some p.cash
    else none
  | _ => none

/-- The cash that was there whenever a call overdrew it. The tolerance is a fraction of this cash,
so that the sum of it bounds what all these calls were given too much. -/
def overdrawn (p : Portfolio ℚ) : List (BookCall ℚ) → List ℚ
  | [] => []
  | call :: rest => (p.overdraft? call).toList ++ (p.perform call).1.overdrawn rest

/-! ## What is not accounted for

One number that tells by how much a book is out of balance, at any price. Sales do not change it,
and an entry changes it by what the clamp at zero makes of its cost. -/

/-- Cash and outlay, less what the closed trades made. With balanced accounts it is the capital, and
what it is beyond that came into the book by overdrawing. -/
def unaccounted (p : Portfolio ℚ) : ℚ := p.cash + p.outlay - p.realizedPnl

/-- The price of the position is on both sides of the accounts. So the excess does not depend on it,
and only a movement can change the excess. -/
theorem excess_eq (p : Portfolio ℚ) (capital price : ℚ) :
    p.equity price - (capital + p.realizedPnl + p.unrealizedPnl price) =
      p.unaccounted - capital := by
  unfold unaccounted
  cases hp : p.position with
  | none =>
    rw [equity_of_flat hp, unrealizedPnl_of_flat hp, outlay_of_flat hp]
    ring
  | some held =>
    rw [equity_of_held hp, unrealizedPnl_of_held hp, outlay_of_held hp, cost_rat]
    ring

/-- What the clamp at zero leaves, with the cost that was met. It is the cash, or more by a part of
the tolerance, and the second only when the cost was above the cash. -/
theorem clamp_bounds {cash cost : ℚ} (h : ¬cash * (1 + cashTolerance) < cost) :
    cash ≤ max 0 (cash - cost) + cost ∧
      max 0 (cash - cost) + cost ≤
        cash + cashTolerance * (if cash < cost then some cash else none).toList.sum := by
  have hcover : cost ≤ cash * (1 + cashTolerance) := not_lt.mp h
  by_cases hover : cash < cost
  · rw [if_pos hover, max_eq_left (by linarith)]
    simp only [Option.toList_some, List.sum_singleton]
    constructor <;> linarith
  · rw [if_neg hover, max_eq_right (by linarith)]
    simp

theorem overdraft?_of_opened {p : Portfolio ℚ} {held : Position ℚ}
    (hopen : p.openPosition held.quantity held.entryPrice held.entryTimestamp
      held.entryCommission = .ok (p.opened held)) :
    p.overdraft? (.buy held.quantity held.entryPrice held.entryTimestamp held.entryCommission) =
      if p.cash < held.cost then some p.cash else none := by
  unfold overdraft?
  simp only [hopen, Except.isOk, Except.toBool, true_and]
  rfl

namespace Turn

variable {p p' : Portfolio ℚ} {call : BookCall ℚ} {answer : BookAnswer ℚ}

/-- A call adds nothing, or at most the tolerance of the cash it overdraws. The only case with
something to prove is the position that is opened. -/
theorem unaccounted (hturn : Turn p call p' answer) :
    p.unaccounted ≤ p'.unaccounted ∧
      p'.unaccounted ≤ p.unaccounted + cashTolerance * (p.overdraft? call).toList.sum := by
  cases hturn with
  | bought held hflat hcash =>
    have hbefore : p.unaccounted = p.cash - p.realizedPnl := by
      rw [Portfolio.unaccounted, outlay_of_flat hflat, add_zero]
    have hafter : (p.opened held).unaccounted =
        max 0 (p.cash - held.cost) + held.cost - p.realizedPnl := by
      rw [Portfolio.unaccounted, cash_opened_rat, outlay_of_held rfl]
      rfl
    obtain ⟨hlow, hhigh⟩ := clamp_bounds hcash
    rw [hbefore, hafter, overdraft?_of_opened (openPosition_of_covered hflat hcash)]
    constructor <;> linarith
  | sold held price timestamp commission hheld =>
    -- the proceeds are the outlay and the result of the trade
    have hafter : (p.sold held price timestamp commission).unaccounted = p.unaccounted := by
      rw [Portfolio.unaccounted, Portfolio.unaccounted, outlay_of_flat rfl, outlay_of_held hheld,
        cost_rat]
      show p.cash + (held.quantity * price - commission) + 0 -
          (p.realizedPnl + closingPnl held price commission) = _
      rw [closingPnl_rat]
      ring
    rw [hafter]
    simp [overdraft?]
  | refused quantity price timestamp commission fault hfault =>
    simp [overdraft?, hfault, Except.isOk, Except.toBool]
  | unsold | afforded | marked => simp [overdraft?]

theorem realizedPnl_eq (hturn : Turn p call p' answer) (h : p.realizedPnl = p.realized) :
    p'.realizedPnl = p'.realized := by
  cases hturn with
  | bought held _ _ =>
    rw [realized_opened]
    exact h
  | sold held price timestamp commission _ =>
    rw [realized_sold, add_comm]
    exact congrArg (· + closingPnl held price commission) h
  | refused | unsold | afforded | marked => exact h

end Turn

/-! ## Any calls

The bounds add up call by call, and the running sum of the book stays the sum over its log. -/

namespace Recorded

variable {p : Portfolio ℚ}

theorem unaccounted_after (h : p.Recorded) (calls : List (BookCall ℚ)) :
    p.unaccounted ≤ (p.after calls).unaccounted ∧
      (p.after calls).unaccounted ≤ p.unaccounted + cashTolerance * (p.overdrawn calls).sum := by
  induction calls generalizing p with
  | nil => simp [Portfolio.after, overdrawn]
  | cons call rest ih =>
    have hturn := turn_perform h call
    obtain ⟨hlow, hhigh⟩ := hturn.unaccounted
    obtain ⟨hlow', hhigh'⟩ := ih (hturn.recorded h)
    rw [overdrawn, List.sum_append, mul_add]
    exact ⟨hlow.trans hlow', hhigh'.trans (by linarith)⟩

theorem realizedPnl_after (h : p.Recorded) (hpnl : p.realizedPnl = p.realized)
    (calls : List (BookCall ℚ)) : (p.after calls).realizedPnl = (p.after calls).realized := by
  induction calls generalizing p with
  | nil => exact hpnl
  | cons call rest ih =>
    have hturn := turn_perform h call
    exact ih (hturn.recorded h) (hturn.realizedPnl_eq hpnl)

end Recorded

end Portfolio

open Portfolio in
/-- **Equity exceeds the accounts by no more than the tolerance of the overdrawn cash.** After any
calls, with any numbers, what the book is worth at any price is at least what capital, closed trades
and the open position account for. It is more by at most a billionth of the cash there was whenever
a position was opened that cost more than the cash; if none did, the two are equal. And what the
closed trades made is the sum over the log. -/
theorem excess_bounded (capital : ℚ) (calls : List (BookCall ℚ)) (price : ℚ) :
    let start := Portfolio.ofCapital capital
    let p := start.after calls
    let excess := p.equity price - (capital + p.realizedPnl + p.unrealizedPnl price)
    0 ≤ excess ∧ excess ≤ 1 / 1000000000 * (start.overdrawn calls).sum ∧
      (start.overdrawn calls = [] → excess = 0) ∧
      p.realizedPnl = ((p.trades.filter Trade.isClosed).map Trade.realizedPnl).sum := by
  intro start p excess
  have h : start.Recorded := Recorded.ofCapital capital
  -- at the start everything is accounted for
  have hstart : start.unaccounted = capital := by
    show capital + 0 - 0 = capital
    ring
  have hexcess : excess = p.unaccounted - capital := excess_eq p capital price
  obtain ⟨hlow, hhigh⟩ := h.unaccounted_after calls
  rw [hstart] at hlow hhigh
  rw [cashTolerance_rat] at hhigh
  rw [hexcess]
  refine ⟨by linarith, by linarith, fun hnone => ?_, ?_⟩
  · -- without an overdraft both bounds are the same
    rw [hnone, List.sum_nil] at hhigh
    linarith
  · rw [filter_trades, List.map_reverse, List.sum_reverse]
    exact h.realizedPnl_after rfl calls

/-- The bound is met when a position costs as much as is let through. -/
example :
    let start := Portfolio.ofCapital 10
    let p := start.after [.buy 1 (10 + 1 / 100000000) 0 0]
    start.overdrawn [.buy 1 (10 + 1 / 100000000) 0 0] = [10] ∧
      p.equity 20 - (10 + p.realizedPnl + p.unrealizedPnl 20) = 1 / 1000000000 * 10 := by
  decide +kernel

end MarketReplay
