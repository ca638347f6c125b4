import MarketReplay.Scalar

/-!
# Positions and trades

A position is what is held now; a trade is its record in the log, which stays after the position is
closed. A trade is open as long as it has no exit. Only long positions occur: a side is part of the
record because exchanges name one, and every trade that a replay writes says `buy`.

Timestamps are integers without bounds, and so is the time between two of them. In 64 bits the
difference of two timestamps need not fit; `HeldWithin` says of a trade that it does
(`MarketReplay.Proofs.Performance.Words`).
-/

set_option autoImplicit false

namespace MarketReplay

/-- Which way a trade goes, as its record names it. Every trade of a run is entered by a buy; the
other side exists in records that come from elsewhere. -/
inductive Side where
  | buy
  | sell
deriving DecidableEq, Repr

/-- What is held: the quantity, at which price and when it was bought, and the commission that this
cost. The price is the one it was filled at, slippage included. -/
@[ext] structure Position (α : Type) where
  entryPrice : α
  quantity : α
  entryTimestamp : Int
  entryCommission : α
deriving DecidableEq, Repr

/-- The record of a position from its entry on. The exit fields are empty until it is closed. The
commission is that of the entry, and once it is closed of both movements together; the profit or
loss is zero until then. -/
@[ext] structure Trade (α : Type) where
  entryTimestamp : Int
  exitTimestamp : Option Int
  side : Side
  entryPrice : α
  exitPrice : Option α
  quantity : α
  commissionPaid : α
  realizedPnl : α
deriving DecidableEq, Repr

namespace Position

variable {α : Type} [Scalar α]

/-- What the position cost without its commission. -/
def entryNotional (p : Position α) : α := p.quantity * p.entryPrice

def marketValue (p : Position α) (price : α) : α := p.quantity * price

/-- The profit or loss of selling at a price, after the commission paid on entry and before any on
exit. The order of the operations matters for floats: the difference of the prices is taken
first. -/
def unrealizedPnl (p : Position α) (price : α) : α :=
  (price - p.entryPrice) * p.quantity - p.entryCommission

end Position

namespace Trade

variable {α : Type}

/-- Whether the trade has an exit. The time of the exit decides, and the price is written with
it. -/
def isClosed (t : Trade α) : Bool := t.exitTimestamp.isSome

/-- How long the position was held, once it is closed. The difference has no bounds here; a machine
that has 64 bits for it finds the same time for every trade that is `HeldWithin` them, and another
one, or none, for a trade that is not. -/
def holdingMillis? (t : Trade α) : Option Int :=
  t.exitTimestamp.map fun exit => exit - t.entryTimestamp

end Trade

namespace Side

def name : Side → String
  | buy => "buy"
  | sell => "sell"

def all : List Side := [buy, sell]

def ofName? (name : String) : Option Side := all.find? fun s => s.name == name

end Side

end MarketReplay
