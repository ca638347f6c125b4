import MarketReplay.Fault
import MarketReplay.Market.Trade
import MarketReplay.Scalar

/-!
# The book

Cash, at most one open position, and the log of trades. Opening a position takes its cost from the
cash and writes an open trade; closing it adds the proceeds, and completes the trade that stands
last in the log. A movement that is refused leaves the book as it was.

The log is kept with the newest trade first, since only that one ever changes; `trades` gives it in
the order of time.

The book does not know where its prices and commissions come from. Slippage, rates and the fraction
of the cash that is committed are the replay's, and the book takes any numbers for them. This is why
what is proved of the book alone is proved of arbitrary calls, and what needs sound prices is proved
of runs.
-/

set_option autoImplicit false

namespace MarketReplay

/-- The state of an account. That the newest trade of the log is open exactly while a position is
held is no part of the type; it holds in every book that calls can reach
(`MarketReplay.Proofs.Book.Calls`). -/
@[ext] structure Portfolio (α : Type) where
  cash : α
  position : Option (Position α)
  /-- The profit and loss of all closed trades together. -/
  realizedPnl : α
  /-- The trades, newest first. -/
  log : List (Trade α)

namespace Portfolio

variable {α : Type} [Scalar α]

/-- An account that has traded nothing yet. -/
def ofCapital (capital : α) : Portfolio α where
  cash := capital
  position := none
  realizedPnl := 0
  log := []

/-- The trades in the order of time; only the last may be open. -/
def trades (p : Portfolio α) : List (Trade α) := p.log.reverse

def hasPosition (p : Portfolio α) : Bool := p.position.isSome

/-- The cash and what the open position is worth at a price. The price is the market's and not the
one a sale would be filled at: selling right now would leave less. -/
def equity (p : Portfolio α) (price : α) : α :=
  p.cash + match p.position with
    | some held => held.marketValue price
    | none => 0

/-- The unrealized profit or loss of the open position, zero without one. The commission of a sale
is not counted, as it has not been paid. -/
def unrealizedPnl (p : Portfolio α) (price : α) : α :=
  match p.position with
  | some held => held.unrealizedPnl price
  | none => 0

/-- The quantity whose price and commission together are the fraction `size` of the cash. The
commission is a part of the cost, so it stands in the divisor; without it, committing all of the
cash would cost more than there is. -/
def affordable (p : Portfolio α) (fill size commissionRate : α) : α :=
  if fill ≤ 0 then 0 else (p.cash * size) / (fill * (1 + commissionRate))

/-- How far, relative to the cash, a cost may pass it and still be met from it. A quantity that was
worked out from the cash comes to a cost that differs from it by roundings, and must not be refused
for them. -/
def cashTolerance : α := 1e-9

/-- The cost of a quantity at a price with its commission. The commission is an amount of money here
and not a rate. -/
def cost (quantity price commission : α) : α := quantity * price + commission

/-- Opens a position. It is refused while another is open, and when its cost passes the cash by more
than the tolerance; a cost within the tolerance leaves no cash. Nothing is asked of the quantity and
the price: the replay does not call with a quantity that is not above zero. -/
def openPosition (p : Portfolio α) (quantity price : α) (timestamp : Int) (commission : α) :
    Except (Fault α) (Portfolio α) :=
  match p.position with
  | some held => .error (.positionAlreadyOpen held.entryTimestamp)
  | none =>
    let cost := cost quantity price commission
    if p.cash * (1 + cashTolerance) < cost then .error (.insufficientCash cost p.cash)
    else .ok
      { p with
        -- a cost within the tolerance may pass the cash: what is left is then nothing, and not a
        -- debt
        cash := Scalar.max 0 (p.cash - cost)
        position := some
          { entryPrice := price
            quantity
            entryTimestamp := timestamp
            entryCommission := commission }
        log :=
          { entryTimestamp := timestamp
            exitTimestamp := none
            side := .buy
            entryPrice := price
            exitPrice := none
            quantity
            commissionPaid := commission
            realizedPnl := 0 } :: p.log }

/-- The profit or loss of selling a position at a price, after both commissions. The commission of
the entry was paid long before, and counts when the trade is over. -/
def closingPnl (held : Position α) (price commission : α) : α :=
  (price - held.entryPrice) * held.quantity - held.entryCommission - commission

/-- A trade with its exit. The commissions of both sides add up in one field; the profit or loss is
worked out by the book. -/
def completed (t : Trade α) (price : α) (timestamp : Int) (commission pnl : α) : Trade α :=
  { t with
    exitTimestamp := some timestamp
    exitPrice := some price
    commissionPaid := t.commissionPaid + commission
    realizedPnl := pnl }

/-- The log with its newest trade completed, if that trade is open, and the trade. A log whose
newest trade is closed, or that has none, is left alone; in a book that calls can reach this does
not occur while a position is held. -/
def completeNewest (log : List (Trade α)) (complete : Trade α → Trade α) :
    List (Trade α) × Option (Trade α) :=
  match log with
  | [] => ([], none)
  | t :: rest =>
    if t.isClosed then (t :: rest, none) else (complete t :: rest, some (complete t))

/-- Sells the open position and completes its trade; without a position nothing happens. The cash
grows by what the sale brings after its commission, and the profit or loss counts the commission of
the entry as well. -/
def closePosition (p : Portfolio α) (price : α) (timestamp : Int) (commission : α) :
    Portfolio α × Option (Trade α) :=
  match p.position with
  | none => (p, none)
  | some held =>
    let proceeds := held.quantity * price - commission
    let pnl := closingPnl held price commission
    let (log, trade) :=
      completeNewest p.log fun t => completed t price timestamp commission pnl
    ({ cash := p.cash + proceeds
       position := none
       realizedPnl := p.realizedPnl + pnl
       log }, trade)

end Portfolio

end MarketReplay
