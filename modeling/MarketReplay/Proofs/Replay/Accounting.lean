import MarketReplay.Proofs.Replay.Money

/-!
# The accounts balance

The equity that a run records is its capital, what its closed trades made, and what the open
position would make, at every bar and to the last digit.

The invariant is about the book alone (`Portfolio.Balanced`): the cash and the outlay on the
position held are together the capital and what the closed trades of the log made. An entry moves
cash into the outlay, an exit moves the outlay and the result into the cash, and nothing else moves.
The price does not occur in it; it comes in when the position is valued
(`Portfolio.Balanced.equity_eq`).

A run is more than its book: the trades closed by a bar have to be found again in the log at the
end, where trades closed later stand as well. That is `log_at_bar`, and it needs the order of time.
-/

set_option autoImplicit false

namespace MarketReplay

variable {σ : Type}

/-! ## The books balance

Exact numbers from here on. The invariant does not mention a price, since the price changes from bar
to bar without anything being moved. -/

namespace Portfolio

/-- What the closed trades of a book made together. The book keeps a running sum as well; this is
the sum over its log, which is what a record shows. -/
def realized (p : Portfolio ℚ) : ℚ := ((p.log.filter Trade.isClosed).map Trade.realizedPnl).sum

theorem realized_opened (p : Portfolio ℚ) (held : Position ℚ) :
    (p.opened held).realized = p.realized := by
  rw [realized, closed_opened, realized]

theorem realized_sold (p : Portfolio ℚ) (held : Position ℚ) (price : ℚ) (timestamp : Int)
    (commission : ℚ) :
    (p.sold held price timestamp commission).realized =
      closingPnl held price commission + p.realized := by
  rw [realized, closed_sold, List.map_cons, List.sum_cons]
  rfl

/-- What the position held took from the cash: the price paid and the commission of the entry. It
counts as it was paid and not as the market has it now. -/
def outlay (p : Portfolio ℚ) : ℚ :=
  match p.position with
  | some held => held.cost
  | none => 0

/-- Nothing was made or lost but by trades: the cash and what was taken from it are what there was
at first and what came of it. -/
def Balanced (capital : ℚ) (p : Portfolio ℚ) : Prop :=
  p.cash + p.outlay = capital + p.realized

theorem outlay_of_flat {p : Portfolio ℚ} (hflat : p.position = none) : p.outlay = 0 := by
  rw [outlay, hflat]

theorem outlay_of_held {p : Portfolio ℚ} {held : Position ℚ} (hheld : p.position = some held) :
    p.outlay = held.cost := by
  rw [outlay, hheld]

namespace Balanced

variable {capital : ℚ} {p p' : Portfolio ℚ} {costs : AccountSettings ℚ} {size : ℚ} {bar : Bar ℚ}

theorem ofCapital (capital : ℚ) : (Portfolio.ofCapital capital).Balanced capital := rfl

theorem opened (hcosts : costs.Valid) (hsize : 0 < size ∧ size ≤ 1) (h : p.Balanced capital)
    (hflat : p.position = none) (hbuyable : Buyable (entryPosition costs size bar p).quantity) :
    (p.opened (entryPosition costs size bar p)).Balanced capital := by
  have hcash := cash_opened hcosts hsize hbuyable
  have houtlay : (p.opened (entryPosition costs size bar p)).outlay = p.cash * size :=
    (outlay_of_held rfl).trans (cost_entryPosition hcosts hbuyable)
  rw [Balanced, outlay_of_flat hflat] at h
  rw [Balanced, hcash, houtlay, realized_opened, ← h]
  ring

/-- The sale brings in the proceeds, and the result of the trade is the proceeds without the
outlay. -/
theorem leave {rate : ℚ} {held : Position ℚ} (hkept : p.Kept rate) (h : p.Balanced capital)
    (hheld : p.position = some held) : (MarketReplay.leave costs bar p).Balanced capital := by
  rw [Balanced, outlay_of_held hheld, cost_rat] at h
  rw [hkept.leave_eq_sold hheld, Balanced, outlay_of_flat rfl, realized_sold, closingPnl_rat]
  show p.cash + (held.quantity * sellFill costs bar.closing - held.exitCommission _ _) + 0 = _
  linarith

theorem movement {action : Action} (hcosts : costs.Valid) (hsize : 0 < size ∧ size ≤ 1)
    (hkept : p.Kept costs.commissionRate) (h : p.Balanced capital)
    (hmove : Movement costs size action bar p p') : p'.Balanced capital := by
  cases hmove with
  | idle => exact h
  | entry _ hflat hbuyable _ => exact h.opened hcosts hsize hflat hbuyable
  | exit held _ hheld => exact h.leave hkept hheld

/-- The equity of a balanced book at any price. Here the price comes in: the position is worth its
outlay and what it would make. -/
theorem equity_eq (h : p.Balanced capital) (price : ℚ) :
    p.equity price = capital + p.realized + p.unrealizedPnl price := by
  cases hp : p.position with
  | none =>
    rw [Balanced, outlay_of_flat hp] at h
    rw [equity_of_flat hp, unrealizedPnl_of_flat hp]
    linarith
  | some held =>
    rw [Balanced, outlay_of_held hp, cost_rat] at h
    rw [equity_of_held hp, unrealizedPnl_of_held hp]
    linarith

end Balanced

end Portfolio

section run

variable {source : SignalSource ℚ σ} {costs : AccountSettings ℚ} {state : σ}
  {bars : List (Bar ℚ)} {last : Session ℚ σ}

theorem balanced (hcosts : costs.Valid) (hsize : 0 < source.positionSize ∧ source.positionSize ≤ 1)
    (hwalk : (Session.start costs (source.reset state)).walk source costs bars = (last, none)) :
    last.book.Balanced costs.initialCapital := by
  suffices last.book.Kept costs.commissionRate ∧
      last.book.Balanced costs.initialCapital from this.2
  refine Session.walk_invariant
    (P := fun _ s => s.book.Kept costs.commissionRate ∧
      s.book.Balanced costs.initialCapital) ⟨.ofCapital _ _, .ofCapital _⟩ ?_ hwalk
  rintro past bar rest s s' _ ⟨hkept, hbalanced⟩ hstep
  have hmove := Session.movement_step hstep
  exact ⟨hkept.movement hmove, hbalanced.movement hcosts hsize hkept hmove⟩

/-- With costs in their bounds and a fraction of the cash, no step fails, at any prices. The
quantity is computed so that the entry costs the fraction committed, and exact numbers do not
overshoot it. -/
theorem walk_succeeds (hcosts : costs.Valid)
    (hsize : 0 < source.positionSize ∧ source.positionSize ≤ 1) (state : σ)
    (bars : List (Bar ℚ)) :
    ∃ last, (Session.start costs (source.reset state)).walk source costs bars = (last, none) :=
  Session.walk_of_covered (fun _ _ => covered_entry hcosts hsize) _ bars

end run

/-! ## The accounts of a run

The same for a record, which has no book. Sums over its trades take the place of what a book keeps,
and the open trade that of the position. -/

/-- What the trades closed by a time made together. It is read off a log that may contain trades
closed later. -/
def realizedBy (time : Int) (trades : List (Trade ℚ)) : ℚ :=
  ((trades.filter (Trade.exitedBy time)).map Trade.realizedPnl).sum

/-- What a trade would make at a price, after the commission paid so far. The commission of an exit
is not in it, since the equity of a book does not deduct it either. -/
def Trade.gainAt (t : Trade ℚ) (price : ℚ) : ℚ :=
  (price - t.entryPrice) * t.quantity - t.commissionPaid

/-- What the open trade of a record would make at a price. -/
def RunRecord.openGainAt (r : RunRecord ℚ) (price : ℚ) : ℚ :=
  match r.openTrade? with
  | some t => t.gainAt price
  | none => 0

theorem openGainAt_toRecord {costs : AccountSettings ℚ} {last : Session ℚ σ}
    (hkept : last.book.Kept costs.commissionRate) (completed : Bool) (price : ℚ) :
    (last.toRecord costs completed).openGainAt price = last.book.unrealizedPnl price := by
  rw [RunRecord.openGainAt, openTrade?_toRecord hkept]
  cases hp : last.book.position with
  | none => rw [unrealizedPnl_of_flat hp]; rfl
  | some held => rw [unrealizedPnl_of_held hp]; rfl

theorem sum_closedTrades_toRecord {costs : AccountSettings ℚ} {last : Session ℚ σ}
    (completed : Bool) :
    ((last.toRecord costs completed).closedTrades.map Trade.realizedPnl).sum =
      last.book.realized := by
  show ((last.book.log.reverse.filter _).map _).sum = _
  rw [List.filter_reverse, List.map_reverse, List.sum_reverse]
  rfl

section run

variable {source : SignalSource ℚ σ} {costs : AccountSettings ℚ} {state : σ}
  {bars : List (Bar ℚ)} {last : Session ℚ σ}

/-- The accounts at a bar, from the log at the end. -/
theorem equity_at_bar (hcosts : costs.Valid)
    (hsize : 0 < source.positionSize ∧ source.positionSize ≤ 1) (hbars : Chronological bars)
    (hwalk : (Session.start costs (source.reset state)).walk source costs bars = (last, none))
    {i : Nat} {bar : Bar ℚ} (hbar : bars[i]? = some bar) :
    (bookAfter source costs state (bars.take (i + 1))).equity bar.closing =
      costs.initialCapital + realizedBy bar.timestamp last.book.trades +
        (bookAfter source costs state (bars.take (i + 1))).unrealizedPnl bar.closing := by
  -- the books balance after the bar, with the log as it then is
  have hbalanced := balanced hcosts hsize (walk_take hwalk (i + 1)).1
  have hrealized : realizedBy bar.timestamp last.book.trades =
      (bookAfter source costs state (bars.take (i + 1))).realized := by
    rw [realizedBy, Portfolio.trades, List.filter_reverse, List.map_reverse, List.sum_reverse,
      (log_at_bar hbars hwalk hbar).2]
    rfl
  rw [hrealized]
  exact hbalanced.equity_eq bar.closing

end run

/-- **The accounts of a run balance at every bar and at its end.** A series in order that is long
enough is replayed, and then the equity at each bar is the capital, what the trades closed by then
made, and what the position held after the bar would make; the final equity is accounted for by the
trades of the record alone. A run that processed no bar ends with the capital and no trades. -/
theorem accounts_balance {source : SignalSource ℚ σ} {costs : AccountSettings ℚ}
    {limit : Option Nat} {bars : List (Bar ℚ)} {state : σ} (hcosts : costs.check = .ok ())
    (hsize : 0 < source.positionSize ∧ source.positionSize ≤ 1) (hbars : Chronological bars) :
    (source.warmup ≤ bars.length → ∃ r, (replay source costs limit bars state).2 = .ok r) ∧
    ∀ r, (replay source costs limit bars state).2 = .ok r →
      (∀ i bar, (reached limit bars)[i]? = some bar →
        ∃ point, r.curve[i]? = some point ∧ point.timestamp = bar.timestamp ∧
          point.equity = costs.initialCapital + realizedBy bar.timestamp r.trades +
            (bookAfter source costs state (bars.take (i + 1))).unrealizedPnl bar.closing) ∧
      (∀ bar, (reached limit bars).getLast? = some bar →
        r.finalEquity = costs.initialCapital + (r.closedTrades.map Trade.realizedPnl).sum +
          r.openGainAt bar.closing) ∧
      (reached limit bars = [] → r.finalEquity = costs.initialCapital ∧ r.trades = []) := by
  have hvalid := AccountSettings.check_eq_ok_iff.mp hcosts
  have hreached := hbars.reached limit
  constructor
  · intro hwarmup
    obtain ⟨last, hwalk⟩ := walk_succeeds hvalid hsize state (reached limit bars)
    exact ⟨_, replay_eq_ok_iff.mpr ⟨hbars, hwarmup, last, hwalk, rfl⟩⟩
  · intro r hr
    obtain ⟨-, -, last, hwalk, rfl⟩ := replay_eq_ok_iff.mp hr
    refine ⟨fun i bar hbar => ?_, fun bar hlast => ?_, fun hnone => ?_⟩
    · refine ⟨_, curve_getElem? hwalk hbar, rfl, ?_⟩
      -- the session speaks of the bars up to the limit, the statement of the series
      have htake : (reached limit bars).take (i + 1) = bars.take (i + 1) :=
        take_reached (List.getElem?_eq_some_iff.mp hbar).1
      rw [← htake]
      exact equity_at_bar hvalid hsize hreached hwalk hbar
    · rw [finalEquity_eq hwalk hlast, sum_closedTrades_toRecord,
        openGainAt_toRecord (kept_and_dated hwalk).1]
      exact (balanced hvalid hsize hwalk).equity_eq bar.closing
    · -- over no bars the walk is where it began
      rw [hnone] at hwalk
      cases hwalk
      exact ⟨rfl, rfl⟩

/-- The sample run closes one trade and ends with another open, and its accounts balance. -/
theorem accounts_balance_sample :
    (AccountSettings.usual : AccountSettings ℚ).check = .ok () ∧
      (0 < sampleRule.source.positionSize ∧ sampleRule.source.positionSize ≤ 1) ∧
      Chronological sampleBars ∧
      ∃ r, (replay sampleRule.source .usual none sampleBars sampleRule.fresh).2 = .ok r ∧
        r.closedTrades.length = 1 ∧ r.openTrade?.isSome ∧
        r.finalEquity = 10000 + (r.closedTrades.map Trade.realizedPnl).sum + r.openGainAt 15 := by
  refine ⟨check_usual, size_sampleRule, chronological_sampleBars, ?_⟩
  obtain ⟨hruns, hbalance⟩ := @accounts_balance _ sampleRule.source .usual none sampleBars
    sampleRule.fresh check_usual size_sampleRule chronological_sampleBars
  obtain ⟨r, hr⟩ := hruns (by decide +kernel)
  have hshape : (replay sampleRule.source .usual none sampleBars sampleRule.fresh).2.toOption.map
      (fun r => (r.closedTrades.length, r.openTrade?.isSome)) = some (1, true) := by
    decide +kernel
  rw [hr] at hshape
  simp only [Except.toOption, Option.map_some, Option.some.injEq, Prod.mk.injEq] at hshape
  have hlast : (reached none sampleBars).getLast? = some (.ofPrices 4 15 15 15 15 1) := by
    decide +kernel
  exact ⟨r, hr, hshape.1, hshape.2, (hbalance r hr).2.1 _ hlast⟩

end MarketReplay
