import MarketReplay.Fault
import MarketReplay.Json.Record
import MarketReplay.Market.Bar

/-!
# Bars from exchange rows

Exchanges list candles as rows: open time, four prices, volume, close time, volume in the quote
currency, count of trades, and more that does not matter here. Numbers come as decimal strings;
plain numbers are taken as well. A row is refused for the first field that is not as it should be.

The length of a row is looked at before any of its fields. The close time is skipped: a bar is named
by the start of its interval, and the timeframe says where it ends.
-/

set_option autoImplicit false

namespace MarketReplay

variable {α : Type} [Scalar α] [DecimalText α]

/-- The fewest fields of a row. -/
def rowFields : Nat := 9

/-- A number that is given as a number or as the text of one. Strings are the rule, because they
keep the digits that the exchange wrote. -/
def rowNumber (field : String) : Json α → Except RowProblem α
  | .string text =>
    match DecimalText.read? text.toList with
    | some x => .ok x
    | none => .error (.notANumber field text)
  | .real x => .ok x
  | .int n => .ok (Scalar.ofInt n)
  | _ => .error (.wrongKind field)

/-- The value of a reading that has to succeed. The problem is named by the caller, who knows the
field. -/
def orProblem {β : Type} (problem : RowProblem) : Option β → Except RowProblem β
  | some x => .ok x
  | none => .error problem

/-- The bar of a row. Fields are read in the order of the row, with the close time passed over, and
whatever comes behind the count of trades may be anything. -/
def barOfRow : Json α → Except RowProblem (Bar α)
  | .list (openTime :: opening :: high :: low :: closing :: volume :: _closeTime
      :: quoteVolume :: tradeCount :: _) => do
    let timestamp ← orProblem .openTime (Json.int64? openTime)
    let bar := Bar.ofPrices timestamp
      (← rowNumber "open" opening)
      (← rowNumber "high" high)
      (← rowNumber "low" low)
      (← rowNumber "close" closing)
      (← rowNumber "volume" volume)
    return { bar with
      quoteVolume := (← rowNumber "quote volume" quoteVolume)
      tradeCount := (← orProblem .tradeCount (Json.nat64? tradeCount)) }
  | .list fields => .error (.tooFewFields fields.length)
  | _ => .error .notAList

/-- The bars of rows that start with number `index`, up to the first fault. The fault carries the
index of its row, so the recursion counts along. -/
def barsOfRowsFrom (index : Nat) : List (Json α) → Except (Fault α) (List (Bar α))
  | [] => .ok []
  | row :: rest =>
    match barOfRow row with
    | .error problem => .error (.collector (.row index problem))
    | .ok bar => (barsOfRowsFrom (index + 1) rest).map (bar :: ·)

def barsOfRows (rows : List (Json α)) : Except (Fault α) (List (Bar α)) := barsOfRowsFrom 0 rows

end MarketReplay
