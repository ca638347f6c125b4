import Mathlib.Tactic.FieldSimp
import Mathlib.Tactic.Linarith
import Mathlib.Tactic.Positivity
import Mathlib.Tactic.Ring
import MarketReplay.Proofs.Replay.Log
import MarketReplay.Proofs.Scalar
import MarketReplay.Proofs.Strategy.CallOrder

/-!
# Money without rounding

The movements of cash over the rationals. A definition over `Scalar` names its operations through
that class, its numerals included, which hides them from arithmetic; the first section writes the
few that money goes through once more in the operations of `Rat`, each by `rfl`.

**What an entry costs** is the fraction of the cash that the source commits, to the last digit
(`cost_entryPosition`): the commission is inside the fraction, not on top of it. With a fraction in
`(0, 1]` it follows that the cash covers the cost, so that no buy fails (`covered_entry`), and that
the clamp at zero, which would make money if it ever acted, does not act (`cash_opened`).
-/

set_option autoImplicit false

namespace MarketReplay

/-! ## The operations of the rationals

Equations of definitions, with every operation in its plain form. A proof rewrites with these first,
and from then on it is arithmetic. -/

theorem sellFill_rat (costs : AccountSettings ℚ) (price : ℚ) :
    sellFill costs price = price * (1 - costs.slippageRate) := rfl

theorem affordable_rat (book : Portfolio ℚ) (fill size rate : ℚ) :
    book.affordable fill size rate =
      if fill ≤ 0 then 0 else (book.cash * size) / (fill * (1 + rate)) := rfl

theorem cashTolerance_rat : (Portfolio.cashTolerance : ℚ) = 1 / 1000000000 := by
  show (1e-9 : ℚ) = 1 / 1000000000
  norm_num

theorem buyable_rat {quantity : ℚ} : Buyable quantity ↔ 0 < quantity :=
  ⟨fun h => h.1, fun h => ⟨h, rfl⟩⟩

theorem cost_rat (held : Position ℚ) :
    held.cost = held.quantity * held.entryPrice + held.entryCommission := rfl

theorem exitCommission_rat (held : Position ℚ) (fill rate : ℚ) :
    held.exitCommission fill rate = held.quantity * fill * rate := rfl

theorem closingPnl_rat (held : Position ℚ) (price commission : ℚ) :
    Portfolio.closingPnl held price commission =
      (price - held.entryPrice) * held.quantity - held.entryCommission - commission := rfl

theorem cash_opened_rat (book : Portfolio ℚ) (held : Position ℚ) :
    (book.opened held).cash = max 0 (book.cash - held.cost) := max_rat 0 (book.cash - held.cost)

theorem cash_leave_rat {costs : AccountSettings ℚ} {bar : Bar ℚ} {book : Portfolio ℚ}
    {held : Position ℚ} (hheld : book.position = some held) :
    (leave costs bar book).cash =
      book.cash + (held.quantity * sellFill costs bar.closing -
        held.exitCommission (sellFill costs bar.closing) costs.commissionRate) := by
  rw [leave_eq hheld]

theorem equity_of_flat {book : Portfolio ℚ} (hflat : book.position = none) (price : ℚ) :
    book.equity price = book.cash := by
  rw [Portfolio.equity, hflat]
  exact add_zero _

theorem equity_of_held {book : Portfolio ℚ} {held : Position ℚ} (hheld : book.position = some held)
    (price : ℚ) : book.equity price = book.cash + held.quantity * price := by
  rw [Portfolio.equity, hheld]
  rfl

theorem unrealizedPnl_of_flat {book : Portfolio ℚ} (hflat : book.position = none) (price : ℚ) :
    book.unrealizedPnl price = 0 := by
  rw [Portfolio.unrealizedPnl, hflat]
  rfl

theorem unrealizedPnl_of_held {book : Portfolio ℚ} {held : Position ℚ}
    (hheld : book.position = some held) (price : ℚ) :
    book.unrealizedPnl price =
      (price - held.entryPrice) * held.quantity - held.entryCommission := by
  rw [Portfolio.unrealizedPnl, hheld]
  rfl

/-! ## Checked settings

The check of the settings as a proposition about numbers. Over the rationals every number is finite,
so that only the bounds are left. -/

/-- Settings that pass their check, over exact numbers and as inequalities. The strict bounds on the
rates follow, which keep fills above zero. -/
structure AccountSettings.Valid (costs : AccountSettings ℚ) : Prop where
  capital_pos : 0 < costs.initialCapital
  commission_nonneg : 0 ≤ costs.commissionRate
  commission_le : costs.commissionRate ≤ 1 / 100
  slippage_nonneg : 0 ≤ costs.slippageRate
  slippage_le : costs.slippageRate ≤ 1 / 100

theorem maxCostRate_rat : (maxCostRate : ℚ) = 1 / 100 := by
  show (0.01 : ℚ) = 1 / 100
  norm_num

theorem checkRate_eq_ok_iff {parameter : String} {rate : ℚ} :
    checkRate parameter rate = .ok () ↔ 0 ≤ rate ∧ rate ≤ 1 / 100 := by
  unfold checkRate
  rw [maxCostRate_rat]
  show (if 0 ≤ rate ∧ rate ≤ 1 / 100 then _ else _) = _ ↔ _
  split <;> simp_all

theorem AccountSettings.check_eq_ok_iff {costs : AccountSettings ℚ} :
    costs.check = .ok () ↔ costs.Valid := by
  unfold AccountSettings.check
  by_cases hcapital : 0 < costs.initialCapital
  · rw [if_pos ⟨rfl, hcapital⟩]
    -- two checks in a row pass when both do
    have hboth : (checkRate "commission_rate" costs.commissionRate >>= fun _ =>
          checkRate "slippage_rate" costs.slippageRate) = .ok () ↔
        checkRate "commission_rate" costs.commissionRate = .ok () ∧
          checkRate "slippage_rate" costs.slippageRate = .ok () := by
      cases checkRate "commission_rate" costs.commissionRate with
      | error fault => simp [bind, Except.bind]
      | ok _ => simp [bind, Except.bind]
    rw [hboth, checkRate_eq_ok_iff, checkRate_eq_ok_iff]
    constructor
    · rintro ⟨⟨hc, hc'⟩, hs, hs'⟩
      exact ⟨hcapital, hc, hc', hs, hs'⟩
    · rintro ⟨-, hc, hc', hs, hs'⟩
      exact ⟨⟨hc, hc'⟩, hs, hs'⟩
  · rw [if_neg fun h => hcapital h.2]
    constructor
    · intro h
      cases h
    · intro h
      exact absurd h.capital_pos hcapital

/-! ## Entries

The one place where a quantity is taken apart. What is proved of entries elsewhere uses the cost
alone. -/

section entry

variable {costs : AccountSettings ℚ} {size : ℚ} {bar : Bar ℚ} {book : Portfolio ℚ}

/-- Something can be bought only at a price above zero: at any other the quantity is put at zero. -/
theorem entryPrice_pos (h : Buyable (entryPosition costs size bar book).quantity) :
    0 < (entryPosition costs size bar book).entryPrice := by
  by_contra hprice
  have hzero : (entryPosition costs size bar book).quantity = 0 := by
    show book.affordable (entryPosition costs size bar book).entryPrice size _ = 0
    rw [affordable_rat, if_pos (not_lt.mp hprice)]
  exact absurd (buyable_rat.mp h) (by rw [hzero]; exact lt_irrefl 0)

/-- **The price and the commission of an entry are together the fraction of the cash** that the
source commits. -/
theorem cost_entryPosition (hcosts : costs.Valid)
    (h : Buyable (entryPosition costs size bar book).quantity) :
    (entryPosition costs size bar book).cost = book.cash * size := by
  have hprice := entryPrice_pos h
  have hquantity : (entryPosition costs size bar book).quantity =
      book.cash * size /
        ((entryPosition costs size bar book).entryPrice * (1 + costs.commissionRate)) := by
    show book.affordable (entryPosition costs size bar book).entryPrice size _ = _
    rw [affordable_rat, if_neg (not_le.mpr hprice)]
  have hrate := hcosts.commission_nonneg
  have hne : (entryPosition costs size bar book).entryPrice * (1 + costs.commissionRate) ≠ 0 := by
    positivity
  have hcommission : (entryPosition costs size bar book).entryCommission =
      (entryPosition costs size bar book).quantity *
        (entryPosition costs size bar book).entryPrice * costs.commissionRate := rfl
  -- the commission is a part of the price, so that both have one divisor
  calc (entryPosition costs size bar book).cost
      = (entryPosition costs size bar book).quantity *
          ((entryPosition costs size bar book).entryPrice * (1 + costs.commissionRate)) := by
        rw [cost_rat, hcommission]
        ring
    _ = book.cash * size := by rw [hquantity, div_mul_cancel₀ _ hne]

variable (hcosts : costs.Valid) (hsize : 0 < size ∧ size ≤ 1)
  (h : Buyable (entryPosition costs size bar book).quantity)

include hcosts hsize h

theorem cash_pos_of_buyable : 0 < book.cash := by
  have hprice := entryPrice_pos h
  have hrate := hcosts.commission_nonneg
  have hcommission : (entryPosition costs size bar book).entryCommission =
      (entryPosition costs size bar book).quantity *
        (entryPosition costs size bar book).entryPrice * costs.commissionRate := rfl
  have hcost : 0 < (entryPosition costs size bar book).cost := by
    have := buyable_rat.mp h
    rw [cost_rat, hcommission]
    positivity
  rw [cost_entryPosition hcosts h] at hcost
  exact pos_of_mul_pos_left hcost hsize.1.le

/-- The cash covers what an entry costs, so that the clamp at zero does not act. What is left is the
part of the cash that is not committed. -/
theorem cash_opened :
    (book.opened (entryPosition costs size bar book)).cash = (1 - size) * book.cash := by
  have hcash := cash_pos_of_buyable hcosts hsize h
  have hrest : 0 ≤ (1 - size) * book.cash := mul_nonneg (by linarith [hsize.2]) hcash.le
  -- what is left is not negative, so that the clamp gives it back
  rw [cash_opened_rat, cost_entryPosition hcosts h, max_eq_right]
  · ring
  · linarith

theorem covered_entry :
    ¬book.cash * (1 + Portfolio.cashTolerance) < (entryPosition costs size bar book).cost := by
  have hcash := cash_pos_of_buyable hcosts hsize h
  rw [cost_entryPosition hcosts h, cashTolerance_rat, not_lt]
  show book.cash * size ≤ book.cash * (1 + 1 / 1000000000)
  exact mul_le_mul_of_nonneg_left (by linarith [hsize.2]) hcash.le

end entry

/-! ## A run to look at

The rule of two short averages on `sampleBars`, with the usual costs. -/

theorem check_usual : (AccountSettings.usual : AccountSettings ℚ).check = .ok () := by
  decide +kernel

theorem chronological_sampleBars : Chronological sampleBars := by
  unfold Chronological
  decide +kernel

theorem size_sampleRule :
    0 < sampleRule.source.positionSize ∧ sampleRule.source.positionSize ≤ 1 := by
  decide +kernel

end MarketReplay
