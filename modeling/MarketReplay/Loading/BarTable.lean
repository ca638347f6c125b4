import MarketReplay.Calendar.Spelling
import MarketReplay.Fault
import MarketReplay.Loading.Table
import MarketReplay.Market.Bar

/-!
# Bars from tables

A record of a bar table has a timestamp, four prices and a volume, and may go on with the volume in
the quote currency and a count of trades. The first six columns have to be right. The two others are
taken when they can be read; otherwise they are zero.

So a spare column that is there and cannot be read is treated like one that is missing. The other
two readers of bars refuse such a value (`barOfRow`, `Bar.ofJson?`).
-/

set_option autoImplicit false

namespace MarketReplay

variable {α : Type} [Scalar α] [DecimalText α]

/-- The instant of a timestamp field. The fault carries the text without the blanks around it. -/
def instantField (field : String) : Except (Fault α) Int :=
  match Calendar.instant? field.toList with
  | some instant => .ok instant
  | none => .error (.table (.timestamp (String.ofList (Text.trim field.toList))))

/-- The number in a column that has to be there. Infinities and `NaN` can be spelled and are numbers
here; it is cleaning that drops such bars. -/
def numberField (record : Nat) (column field : String) : Except (Fault α) α :=
  match DecimalText.read? field.toList with
  | some x => .ok x
  | none => .error (.table (.invalidNumber record column field))

/-- The value of a column that may be missing. What cannot be read has the same value as what is not
there. -/
def spareField {β : Type} (read? : List Char → Option β) (value : β) : Option String → β
  | some field => (read? field.toList).getD value
  | none => value

/-- The bar of a record; records are counted from one. The columns are read from left to right, and
the first that cannot be read is the fault. -/
def barOfRecord (record : Nat) : Option (List String) → Except (Fault α) (Bar α)
  | none => .error (.table (.encoding record))
  | some (timestamp :: opening :: high :: low :: closing :: volume :: spare) => do
    let bar := Bar.ofPrices
      (← instantField timestamp)
      (← numberField record "open" opening)
      (← numberField record "high" high)
      (← numberField record "low" low)
      (← numberField record "close" closing)
      (← numberField record "volume" volume)
    -- neither of the two can fail any more
    return { bar with
      quoteVolume := spareField DecimalText.read? 0 spare[0]?
      tradeCount := spareField Decimal.readNat64? 0 spare[1]? }
  | some fields => .error (.table (.tooFewColumns record fields.length))

/-- The bars of records that start with number `record`, up to the first fault. The number is
carried along because faults name it. -/
def barsOfRecords (record : Nat) : List (Option (List String)) → Except (Fault α) (List (Bar α))
  | [] => .ok []
  | fields :: rest => do
    let bar ← barOfRecord record fields
    let bars ← barsOfRecords (record + 1) rest
    return bar :: bars

/-- The bars of a table. -/
def barsOfTable (bytes : List UInt8) : Except (Fault α) (List (Bar α)) :=
  barsOfRecords 1 (Table.records bytes)

end MarketReplay
