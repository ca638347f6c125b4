import MarketReplay.Proofs.Replay.SideBySide
import MarketReplay.Proofs.Replay.Solvency
import MarketReplay.Proofs.Strategy.PriceUnit

/-!
# Other units

A run has two units, that of money and that of the prices. With the capital in another unit of the
one and the prices in another unit of the other it is the same run, and its record is the same
record, written in these units (`replay_inUnits`). Each definition on the way commutes with the
change, because where an amount, a price or a quantity is compared with a fixed number, that number
is zero.

There is one exception. The highest equity before the first bar is the lowest number of the format,
which follows no unit. But the equity at the first bar is above zero, whatever the price is
(`Portfolio.equity_pos_of_first`), and from then on the highest equity is one that was reached.

Wins and losses are left out: what tells them apart is a fixed amount of money.
-/

set_option autoImplicit false

namespace MarketReplay

variable {σ : Type}

/-! ## What a change of units does

The change, written out for every kind of data that has amounts in it. Times, rates and counts have
no unit, and neither have returns and drawdowns. -/

/-- The factors by which amounts of money and prices are multiplied. They are independent: a
quantity is an amount of money by a price, and its factor is their quotient. -/
structure Units where
  money : ℚ
  price : ℚ
  money_pos : 0 < money
  price_pos : 0 < price

namespace Units

def quantity (u : Units) : ℚ := u.money / u.price

theorem quantity_pos (u : Units) : 0 < u.quantity := div_pos u.money_pos u.price_pos

theorem quantity_mul_price (u : Units) (x y : ℚ) :
    u.quantity * x * (u.price * y) = u.money * (x * y) := by
  have hcancel : u.quantity * u.price = u.money := div_mul_cancel₀ _ u.price_pos.ne'
  rw [mul_mul_mul_comm, hcancel]

end Units

def Position.inUnits (u : Units) (held : Position ℚ) : Position ℚ :=
  { held with
    entryPrice := u.price * held.entryPrice
    quantity := u.quantity * held.quantity
    entryCommission := u.money * held.entryCommission }

def Trade.inUnits (u : Units) (t : Trade ℚ) : Trade ℚ :=
  { t with
    entryPrice := u.price * t.entryPrice
    exitPrice := t.exitPrice.map (u.price * ·)
    quantity := u.quantity * t.quantity
    commissionPaid := u.money * t.commissionPaid
    realizedPnl := u.money * t.realizedPnl }

def Portfolio.inUnits (u : Units) (p : Portfolio ℚ) : Portfolio ℚ where
  cash := u.money * p.cash
  position := p.position.map (Position.inUnits u)
  realizedPnl := u.money * p.realizedPnl
  log := p.log.map (Trade.inUnits u)

def EquityPoint.inUnits (u : Units) (point : EquityPoint ℚ) : EquityPoint ℚ :=
  { point with equity := u.money * point.equity }

def AccountSettings.inUnits (u : Units) (costs : AccountSettings ℚ) : AccountSettings ℚ :=
  -- the rates have no unit
  { costs with initialCapital := u.money * costs.initialCapital }

@[simp] theorem Trade.isClosed_inUnits (u : Units) (t : Trade ℚ) :
    (t.inUnits u).isClosed = t.isClosed := rfl

theorem AccountSettings.Valid.inUnits {costs : AccountSettings ℚ} (h : costs.Valid) (u : Units) :
    (costs.inUnits u).Valid :=
  { h with capital_pos := mul_pos u.money_pos h.capital_pos }

variable {u : Units} {costs : AccountSettings ℚ} {size : ℚ} {bar : Bar ℚ} {p p' q' : Portfolio ℚ}

/-! ## Movements

Every function that a bar goes through commutes with the change. The lemmas follow the definitions,
from the value of a position to what an exit leaves of the book. -/

namespace Portfolio

theorem ofCapital_inUnits (capital : ℚ) :
    (ofCapital capital).inUnits u = ofCapital (u.money * capital) := by
  apply Portfolio.ext
  case realizedPnl => exact mul_zero u.money
  all_goals rfl

theorem flat_inUnits_iff : (p.inUnits u).position = none ↔ p.position = none :=
  Option.map_eq_none_iff

theorem equity_inUnits (p : Portfolio ℚ) (price : ℚ) :
    (p.inUnits u).equity (u.price * price) = u.money * p.equity price := by
  cases hp : p.position with
  | none =>
    rw [equity_of_flat hp, equity_of_flat (flat_inUnits_iff.mpr hp)]
    rfl
  | some held =>
    have hheld : (p.inUnits u).position = some (held.inUnits u) := congrArg (Option.map _) hp
    rw [equity_of_held hp, equity_of_held hheld, mul_add, ← u.quantity_mul_price]
    rfl

theorem affordable_inUnits (p : Portfolio ℚ) (fill size rate : ℚ) :
    (p.inUnits u).affordable (u.price * fill) size rate =
      u.quantity * p.affordable fill size rate := by
  have hprice : u.price * fill ≤ 0 ↔ fill ≤ 0 := by
    rw [← not_lt, ← not_lt, mul_pos_iff_of_pos_left u.price_pos]
  rw [affordable_rat, affordable_rat]
  simp only [hprice]
  split
  · exact (mul_zero _).symm
  · show u.money * p.cash * size / (u.price * fill * (1 + rate)) = _
    rw [mul_assoc, mul_assoc, mul_div_mul_comm]
    rfl

end Portfolio

theorem entryPosition_inUnits (costs : AccountSettings ℚ) (size : ℚ) (bar : Bar ℚ)
    (p : Portfolio ℚ) :
    entryPosition (costs.inUnits u) size (bar.repriced u.price) (p.inUnits u) =
      (entryPosition costs size bar p).inUnits u := by
  have hfill : buyFill (costs.inUnits u) (bar.repriced u.price).closing =
      u.price * buyFill costs bar.closing := mul_assoc ..
  have hquantity : (p.inUnits u).affordable (u.price * buyFill costs bar.closing) size
      costs.commissionRate =
        u.quantity * p.affordable (buyFill costs bar.closing) size costs.commissionRate :=
    p.affordable_inUnits ..
  unfold entryPosition
  rw [hfill]
  -- a commission is a quantity times a price times a rate, hence money
  apply Position.ext
  case entryPrice => rfl
  case quantity => exact hquantity
  case entryTimestamp => rfl
  case entryCommission =>
    show (p.inUnits u).affordable _ size costs.commissionRate * _ * costs.commissionRate = _
    rw [hquantity, u.quantity_mul_price, mul_assoc]
    rfl

theorem buyable_inUnits_iff (held : Position ℚ) :
    Buyable (held.inUnits u).quantity ↔ Buyable held.quantity := by
  rw [buyable_rat, buyable_rat]
  exact mul_pos_iff_of_pos_left u.quantity_pos

theorem cost_inUnits (held : Position ℚ) : (held.inUnits u).cost = u.money * held.cost := by
  rw [cost_rat, cost_rat, mul_add, ← u.quantity_mul_price]
  rfl

theorem Position.openTrade_inUnits (held : Position ℚ) :
    (held.inUnits u).openTrade = held.openTrade.inUnits u := by
  apply Trade.ext
  case realizedPnl => exact (mul_zero u.money).symm
  all_goals rfl

theorem Portfolio.opened_inUnits (p : Portfolio ℚ) (held : Position ℚ) :
    (p.inUnits u).opened (held.inUnits u) = (p.opened held).inUnits u := by
  apply Portfolio.ext
  case cash =>
    show _ = u.money * (p.opened held).cash
    rw [cash_opened_rat, cash_opened_rat, cost_inUnits, mul_max_of_nonneg _ _ u.money_pos.le,
      mul_zero, mul_sub]
    rfl
  case position => rfl
  case realizedPnl => rfl
  case log => exact congrArg (· :: _) held.openTrade_inUnits

/-- Completing the newest trade of a log commutes with the change if the completion does. Whether a
trade is open is a matter of dates, which have no unit. -/
theorem completeNewest_inUnits {complete complete' : Trade ℚ → Trade ℚ}
    (h : ∀ t : Trade ℚ, complete' (t.inUnits u) = (complete t).inUnits u)
    (log : List (Trade ℚ)) :
    (Portfolio.completeNewest (log.map (Trade.inUnits u)) complete').1 =
      (Portfolio.completeNewest log complete).1.map (Trade.inUnits u) := by
  cases log with
  | nil => rfl
  | cons t rest =>
    simp only [List.map_cons, Portfolio.completeNewest, Trade.isClosed_inUnits, h]
    split <;> rfl

theorem completed_inUnits (t : Trade ℚ) (fill commission pnl : ℚ) (timestamp : Int) :
    Portfolio.completed (t.inUnits u) (u.price * fill) timestamp (u.money * commission)
        (u.money * pnl) =
      (Portfolio.completed t fill timestamp commission pnl).inUnits u := by
  apply Trade.ext
  case commissionPaid => exact (mul_add ..).symm
  all_goals rfl

theorem closingPnl_inUnits (held : Position ℚ) (fill commission : ℚ) :
    Portfolio.closingPnl (held.inUnits u) (u.price * fill) (u.money * commission) =
      u.money * Portfolio.closingPnl held fill commission := by
  have hmove : (u.price * fill - u.price * held.entryPrice) * (u.quantity * held.quantity) =
      u.money * ((fill - held.entryPrice) * held.quantity) := by
    rw [← mul_sub, mul_comm, u.quantity_mul_price, mul_comm held.quantity]
  rw [closingPnl_rat, closingPnl_rat, mul_sub, mul_sub, ← hmove]
  rfl

theorem exitCommission_inUnits (held : Position ℚ) (fill rate : ℚ) :
    (held.inUnits u).exitCommission (u.price * fill) rate =
      u.money * held.exitCommission fill rate := by
  show u.quantity * held.quantity * (u.price * fill) * rate = u.money * (_ * fill * rate)
  rw [u.quantity_mul_price, mul_assoc]

theorem leave_inUnits {held : Position ℚ} (hheld : p.position = some held) :
    leave (costs.inUnits u) (bar.repriced u.price) (p.inUnits u) =
      (leave costs bar p).inUnits u := by
  have hheld' : (p.inUnits u).position = some (held.inUnits u) := congrArg (Option.map _) hheld
  have hfill : sellFill (costs.inUnits u) (bar.repriced u.price).closing =
      u.price * sellFill costs bar.closing := mul_assoc ..
  have hcommission : (held.inUnits u).exitCommission (u.price * sellFill costs bar.closing)
      (costs.inUnits u).commissionRate =
        u.money * held.exitCommission (sellFill costs bar.closing) costs.commissionRate :=
    exitCommission_inUnits ..
  rw [leave_eq hheld, leave_eq hheld']
  simp only [hfill, hcommission, closingPnl_inUnits]
  -- what is left are the fields of the book, each in its unit
  apply Portfolio.ext
  case cash =>
    show u.money * p.cash + (u.quantity * held.quantity * (u.price * _) - _) = u.money * _
    rw [u.quantity_mul_price, ← mul_sub, ← mul_add]
  case position => rfl
  case realizedPnl => exact (mul_add ..).symm
  case log => exact completeNewest_inUnits (fun t => completed_inUnits ..) p.log

/-- **A movement in other units is the movement, in these units.** What decides on it, the answer,
the position and whether the quantity is above zero, is the same in both. -/
theorem Movement.inUnits {action : Action} (h : Movement costs size action bar p p')
    (h' : Movement (costs.inUnits u) size action (bar.repriced u.price) (p.inUnits u) q') :
    q' = p'.inUnits u := by
  have hbuyable : p.position = none → (Buyable (entryPosition costs size bar p).quantity ↔
      Buyable (entryPosition (costs.inUnits u) size (bar.repriced u.price)
        (p.inUnits u)).quantity) := by
    intro _
    rw [entryPosition_inUnits, buyable_inUnits_iff]
  cases h.paired h' Portfolio.flat_inUnits_iff.symm hbuyable with
  | idle => rfl
  | entry => rw [entryPosition_inUnits, Portfolio.opened_inUnits]
  | exit _ _ hheld _ => exact leave_inUnits hheld

/-! ## The highest equity

Why the lowest number of the format does no harm. It is compared with an equity once, at the first
bar. -/

/-- At the first bar the equity is above zero: what can be bought has a price above zero. -/
theorem Portfolio.equity_pos_of_first {action : Action} (hcosts : costs.Valid)
    (hsize : 0 < size ∧ size ≤ 1)
    (h : Movement costs size action bar (.ofCapital costs.initialCapital) p') :
    0 < p'.equity bar.closing := by
  cases h with
  | idle =>
    rw [equity_of_flat rfl]
    exact hcosts.capital_pos
  | entry _ _ hbuyable _ =>
    have hfill : 0 < bar.closing * (1 + costs.slippageRate) := entryPrice_pos hbuyable
    have hrate : 0 < 1 + costs.slippageRate := by linarith [hcosts.slippage_nonneg]
    exact (Solvent.opened hcosts hsize hbuyable).equity_pos (pos_of_mul_pos_left hfill hrate.le)
  | exit held _ hheld => cases hheld

/-! ## Two runs

The relation between the two sessions, and between the two records. That it holds at every bar is
the step lemma; the rule for two runs side by side does the rest. -/

/-- The second session is the first one in other units. Before the first bar there is no highest
equity, in either; then both books are still those of the start. -/
structure Session.InUnits (u : Units) (costs : AccountSettings ℚ) (s t : Session ℚ σ) : Prop where
  book_eq : t.book = s.book.inUnits u
  curve_eq : t.curve = s.curve.map (EquityPoint.inUnits u)
  peak_eq : (0 < s.peak ∧ t.peak = u.money * s.peak) ∨
    s.book = .ofCapital costs.initialCapital ∧ s.peak = lowestPeak ∧ t.peak = lowestPeak

structure RunRecord.InUnits (u : Units) (r r' : RunRecord ℚ) : Prop where
  initialCapital_eq : r'.initialCapital = u.money * r.initialCapital
  finalCapital_eq : r'.finalCapital = u.money * r.finalCapital
  finalEquity_eq : r'.finalEquity = u.money * r.finalEquity
  totalReturn_eq : r'.totalReturn = r.totalReturn
  totalTrades_eq : r'.totalTrades = r.totalTrades
  trades_eq : r'.trades = r.trades.map (Trade.inUnits u)
  curve_eq : r'.curve = r.curve.map (EquityPoint.inUnits u)
  timestamps_eq : r'.timestamps = r.timestamps
  barsProcessed_eq : r'.barsProcessed = r.barsProcessed
  completed_eq : r'.completed = r.completed

namespace Session.InUnits

variable {source : SignalSource ℚ σ} {s s' t t' : Session ℚ σ}

theorem start (costs : AccountSettings ℚ) (state state' : σ) :
    Session.InUnits u costs (.start costs state) (.start (costs.inUnits u) state') where
  book_eq := (Portfolio.ofCapital_inUnits _).symm
  curve_eq := rfl
  peak_eq := .inr ⟨rfl, rfl, rfl⟩

theorem step (hcosts : costs.Valid)
    (hsize : 0 < source.positionSize ∧ source.positionSize ≤ 1) (h : s.InUnits u costs t)
    (hanswer : (s.ask source bar).2 = (t.ask source (bar.repriced u.price)).2)
    (hs : s.step source costs bar = (s', none))
    (ht : t.step source (costs.inUnits u) (bar.repriced u.price) = (t', none)) :
    s'.InUnits u costs t' := by
  have hmove := Session.movement_step hs
  have hmove' := Session.movement_step ht
  rw [← hanswer, h.book_eq] at hmove'
  have hbook : t'.book = s'.book.inUnits u := hmove.inUnits hmove'
  have hequity : t'.book.equity (bar.repriced u.price).closing =
      u.money * s'.book.equity bar.closing := by
    rw [hbook, Bar.closing_repriced, Portfolio.equity_inUnits]
  have hpeak : 0 < s'.peak ∧ t'.peak = u.money * s'.peak := by
    rw [Session.peak_step hs, Session.peak_step ht, hequity, max_rat, max_rat]
    rcases h.peak_eq with ⟨hpos, heq⟩ | ⟨hfirst, hs₀, ht₀⟩
    · rw [heq, ← mul_max_of_nonneg _ _ u.money_pos.le]
      exact ⟨lt_max_of_lt_left hpos, rfl⟩
    · -- at the first bar both peaks are the equity, which is above zero
      rw [hfirst] at hmove
      have hpos := Portfolio.equity_pos_of_first hcosts hsize hmove
      have hpos' := mul_pos u.money_pos hpos
      rw [hs₀, ht₀, max_eq_right (lowestPeak_neg.trans hpos).le,
        max_eq_right (lowestPeak_neg.trans hpos').le]
      exact ⟨hpos, rfl⟩
  refine ⟨hbook, ?_, .inl hpeak⟩
  rw [Session.curve_step hs, Session.curve_step ht, h.curve_eq, hequity, hpeak.2,
    drawdown_mul u.money_pos]
  rfl

theorem toRecord (h : s.InUnits u costs t) (completed : Bool) :
    (s.toRecord costs completed).InUnits u (t.toRecord (costs.inUnits u) completed) := by
  have hequity : (t.toRecord (costs.inUnits u) completed).finalEquity =
      u.money * (s.toRecord costs completed).finalEquity := by
    unfold Session.toRecord
    rw [h.curve_eq]
    cases s.curve <;> rfl
  have hcurve : (t.toRecord (costs.inUnits u) completed).curve =
      (s.toRecord costs completed).curve.map (EquityPoint.inUnits u) := by
    rw [Session.toRecord_curve, Session.toRecord_curve, h.curve_eq, List.map_reverse]
  have htrades : (t.toRecord (costs.inUnits u) completed).trades =
      (s.toRecord costs completed).trades.map (Trade.inUnits u) := by
    rw [Session.toRecord_trades, Session.toRecord_trades, h.book_eq, List.map_reverse]
    rfl
  have hclosed : (t.toRecord (costs.inUnits u) completed).closedTrades =
      (s.toRecord costs completed).closedTrades.map (Trade.inUnits u) := by
    rw [RunRecord.closedTrades, htrades, List.filter_map]
    rfl
  exact
    { initialCapital_eq := rfl
      finalCapital_eq := congrArg Portfolio.cash h.book_eq
      finalEquity_eq := hequity
      -- the factor of both amounts cancels
      totalReturn_eq := by
        rw [Session.toRecord_totalReturn, Session.toRecord_totalReturn, hequity]
        show u.money * _ / (u.money * costs.initialCapital) - 1 = _
        rw [mul_div_mul_left _ _ u.money_pos.ne']
        rfl
      totalTrades_eq := by
        rw [Session.toRecord_totalTrades, Session.toRecord_totalTrades, hclosed, List.length_map]
      trades_eq := htrades
      curve_eq := hcurve
      timestamps_eq := by
        show List.map _ (t.toRecord (costs.inUnits u) completed).curve = _
        rw [hcurve, List.map_map]
        rfl
      barsProcessed_eq := by
        rw [Session.toRecord_barsProcessed, Session.toRecord_barsProcessed, h.curve_eq,
          List.length_map]
      completed_eq := rfl }

end Session.InUnits

theorem Chronological.repriced {bars : List (Bar ℚ)} (h : Chronological bars) (b : ℚ) :
    Chronological (bars.map (Bar.repriced b)) := List.pairwise_map.mpr h

theorem reached_map (limit : Option Nat) (bars : List (Bar ℚ)) (f : Bar ℚ → Bar ℚ) :
    reached limit (bars.map f) = (reached limit bars).map f := by
  cases limit with
  | none => rfl
  | some n => exact List.map_take.symm

/-- **A run in other units is the run, in these units.** With the capital multiplied by one factor
above zero and all prices by another, and the same answers, it makes the same trades at the same
bars. Amounts are multiplied by the one factor, prices by the other and quantities by their
quotient; returns and drawdowns are what they were. A series that is too short is refused in both.

That the answers are the same is a hypothesis, since a source may look at prices in absolute
terms. -/
theorem replay_inUnits (u : Units) (source : SignalSource ℚ σ) (costs : AccountSettings ℚ)
    (limit : Option Nat) (bars : List (Bar ℚ)) (state state' : σ) (hcosts : costs.check = .ok ())
    (hsize : 0 < source.positionSize ∧ source.positionSize ≤ 1) (hbars : Chronological bars)
    (hactions : actionsAlong source state (reached limit bars) =
      actionsAlong source state' ((reached limit bars).map (Bar.repriced u.price))) :
    let before := (replay source costs limit bars state).2
    let after := (replay source (costs.inUnits u) limit (bars.map (Bar.repriced u.price)) state').2
    (bars.length < source.warmup → ∃ fault, before = .error fault ∧ after = .error fault) ∧
      (source.warmup ≤ bars.length →
        ∃ r r', before = .ok r ∧ after = .ok r' ∧ r.InUnits u r') := by
  intro before after
  have hlength : (bars.map (Bar.repriced u.price)).length = bars.length := List.length_map _
  have hbars' := hbars.repriced u.price
  constructor
  · intro hshort
    have hafter : after = _ := replay_of_short hbars' (hlength.symm ▸ hshort)
    rw [hlength] at hafter
    exact ⟨_, replay_of_short hbars hshort, hafter⟩
  · intro hwarmup
    have hvalid := AccountSettings.check_eq_ok_iff.mp hcosts
    obtain ⟨last, hwalk⟩ := walk_succeeds hvalid hsize state (reached limit bars)
    obtain ⟨last', hwalk'⟩ := walk_succeeds (hvalid.inUnits u) hsize state'
      ((reached limit bars).map (Bar.repriced u.price))
    have hlast : last.InUnits u costs last' := by
      refine Session.walk_related (Bar.repriced u.price) hactions hwalk hwalk' (.start costs _ _) ?_
      intro bar _ s t s' t' h hanswer hs ht
      exact h.step hvalid hsize hanswer hs ht
    have hrun : (replay source costs limit bars state).2 = .ok
        (last.toRecord costs ((reached limit bars).length == bars.length)) :=
      replay_eq_ok_iff.mpr ⟨hbars, hwarmup, last, hwalk, rfl⟩
    have hrun' : after = .ok
        (last'.toRecord (costs.inUnits u) ((reached limit bars).length == bars.length)) := by
      -- the bars of a limit are the repriced bars of that limit
      refine replay_eq_ok_iff.mpr ⟨hbars', hlength.symm ▸ hwarmup, last', ?_, ?_⟩
      · rw [reached_map]
        exact hwalk'
      · rw [reached_map, List.length_map, hlength]
    exact ⟨_, _, hrun, hrun', hlast.toRecord _⟩

/-- The sample run with three times the capital and half the prices. -/
theorem replay_inUnits_sample :
    let u : Units := ⟨3, 1 / 2, by decide +kernel, by decide +kernel⟩
    (AccountSettings.usual : AccountSettings ℚ).check = .ok () ∧
      (0 < sampleRule.source.positionSize ∧ sampleRule.source.positionSize ≤ 1) ∧
      Chronological sampleBars ∧
      actionsAlong sampleRule.source sampleRule.fresh (reached none sampleBars) =
        actionsAlong sampleRule.source sampleRule.fresh
          ((reached none sampleBars).map (Bar.repriced u.price)) ∧
      ∃ r r',
        (replay sampleRule.source .usual none sampleBars sampleRule.fresh).2 = .ok r ∧
        (replay sampleRule.source (AccountSettings.usual.inUnits u) none
          (sampleBars.map (Bar.repriced u.price)) sampleRule.fresh).2 = .ok r' ∧
        r.trades.length = 2 ∧ r.totalTrades = 1 ∧ r.InUnits u r' := by
  intro u
  -- the means are above one in both units, so that the rule answers alike
  have hactions : actionsAlong sampleRule.source sampleRule.fresh (reached none sampleBars) =
      actionsAlong sampleRule.source sampleRule.fresh
        ((reached none sampleBars).map (Bar.repriced u.price)) := by
    decide +kernel
  refine ⟨check_usual, size_sampleRule, chronological_sampleBars, hactions, ?_⟩
  obtain ⟨r, r', hr, hr', hunits⟩ := (replay_inUnits u sampleRule.source .usual none sampleBars
    sampleRule.fresh sampleRule.fresh check_usual size_sampleRule chronological_sampleBars
    hactions).2 (by decide +kernel)
  have hshape : (replay sampleRule.source .usual none sampleBars sampleRule.fresh).2.toOption.map
      (fun r => (r.trades.length, r.totalTrades)) = some (2, 1) := by
    decide +kernel
  rw [hr] at hshape
  simp only [Except.toOption, Option.map_some, Option.some.injEq, Prod.mk.injEq] at hshape
  exact ⟨r, r', hr, hr', hshape.1, hshape.2, hunits⟩

end MarketReplay
