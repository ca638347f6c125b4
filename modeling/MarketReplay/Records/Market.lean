import MarketReplay.Json.Record
import MarketReplay.Market.Bar
import MarketReplay.Market.Signal
import MarketReplay.Market.Timeframe
import MarketReplay.Market.Trade

/-!
# Bars, signals and trades as JSON records

Each record has a `toJson` and an `ofJson?` beside it. Bars may leave out their last three fields;
an open trade leaves out its exit when written, and may leave it out or give null when read.

The names of the fields are those of the documents and not those of the structures. Each field is
named with its place, since a record may also be given as a list of its values in order. Fields that
a record does not have are passed over.
-/

set_option autoImplicit false

namespace MarketReplay

open Json (Fields fields?)

variable {α : Type}

/-! ## Names

Cases without contents are written as their names. Each of these reads back what it writes because
`ofName?` looks the name up among all cases. -/

def Quality.toJson (q : Quality) : Json α := .string q.name

def Quality.ofJson? (j : Json α) : Option Quality := (Json.caseName? j).bind ofName?

def Action.toJson (a : Action) : Json α := .string a.name

def Action.ofJson? (j : Json α) : Option Action := (Json.caseName? j).bind ofName?

def Side.toJson (s : Side) : Json α := .string s.name

def Side.ofJson? (j : Json α) : Option Side := (Json.caseName? j).bind ofName?

def Timeframe.toJson (t : Timeframe) : Json α := .string t.name

def Timeframe.ofJson? (j : Json α) : Option Timeframe := (Json.caseName? j).bind ofName?

/-! ## Records

A number that is read has to fit its field: timestamps are words of 64 bits with a sign, counts such
without one. A scalar that is not finite has no number in JSON and is written as null, which no
scalar is read from. -/

def Signal.toJson (s : Signal) : Json α :=
  .object [("timestamp", .int s.timestamp), ("signal_type", s.action.toJson)]

def Signal.ofJson? (j : Json α) : Option Signal := do
  let f ← fields? 2 j
  let timestamp ← f.required 0 "timestamp" Json.int64?
  let action ← f.required 1 "signal_type" Action.ofJson?
  return { timestamp, action }

variable [Scalar α]

open Json (ofScalar scalar? int64? nat64?)

def Bar.toJson (b : Bar α) : Json α :=
  .object [
    ("timestamp", .int b.timestamp),
    ("open", ofScalar b.opening),
    ("high", ofScalar b.high),
    ("low", ofScalar b.low),
    ("close", ofScalar b.closing),
    ("volume", ofScalar b.volume),
    ("quote_volume", ofScalar b.quoteVolume),
    ("trades_count", Json.ofNat b.tradeCount),
    ("quality", b.quality.toJson)]

/-- The bar of a document. Its last three fields may be missing, and then have the values of a bar
of which only prices and volume are known. -/
def Bar.ofJson? (j : Json α) : Option (Bar α) := do
  let f ← fields? 9 j
  let timestamp ← f.required 0 "timestamp" int64?
  let opening ← f.required 1 "open" scalar?
  let high ← f.required 2 "high" scalar?
  let low ← f.required 3 "low" scalar?
  let closing ← f.required 4 "close" scalar?
  let volume ← f.required 5 "volume" scalar?
  let quoteVolume ← f.withDefault 6 "quote_volume" scalar? 0
  let tradeCount ← f.withDefault 7 "trades_count" nat64? 0
  let quality ← f.withDefault 8 "quality" Quality.ofJson? .good
  return { timestamp, opening, high, low, closing, volume, quoteVolume, tradeCount, quality }

def Position.toJson (p : Position α) : Json α :=
  .object [
    ("entry_price", ofScalar p.entryPrice),
    ("quantity", ofScalar p.quantity),
    ("entry_timestamp", .int p.entryTimestamp),
    ("entry_commission", ofScalar p.entryCommission)]

def Position.ofJson? (j : Json α) : Option (Position α) := do
  let f ← fields? 4 j
  let entryPrice ← f.required 0 "entry_price" scalar?
  let quantity ← f.required 1 "quantity" scalar?
  let entryTimestamp ← f.required 2 "entry_timestamp" int64?
  let entryCommission ← f.required 3 "entry_commission" scalar?
  return { entryPrice, quantity, entryTimestamp, entryCommission }

def Trade.toJson (t : Trade α) : Json α :=
  .object <|
    [("entry_timestamp", .int t.entryTimestamp)]
    ++ Json.ofOptional "exit_timestamp" Json.int t.exitTimestamp
    ++ [("side", t.side.toJson), ("entry_price", ofScalar t.entryPrice)]
    ++ Json.ofOptional "exit_price" ofScalar t.exitPrice
    ++ [("quantity", ofScalar t.quantity),
        ("commission_paid", ofScalar t.commissionPaid),
        ("realized_pnl", ofScalar t.realizedPnl)]

def Trade.ofJson? (j : Json α) : Option (Trade α) := do
  let f ← fields? 8 j
  let entryTimestamp ← f.required 0 "entry_timestamp" int64?
  let exitTimestamp ← f.optional 1 "exit_timestamp" int64?
  let side ← f.required 2 "side" Side.ofJson?
  let entryPrice ← f.required 3 "entry_price" scalar?
  let exitPrice ← f.optional 4 "exit_price" scalar?
  let quantity ← f.required 5 "quantity" scalar?
  let commissionPaid ← f.required 6 "commission_paid" scalar?
  let realizedPnl ← f.required 7 "realized_pnl" scalar?
  return {
    entryTimestamp, exitTimestamp, side, entryPrice, exitPrice, quantity, commissionPaid
    realizedPnl }

end MarketReplay
