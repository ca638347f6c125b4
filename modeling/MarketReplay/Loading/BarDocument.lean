import MarketReplay.Json.Reader
import MarketReplay.Loading.ExchangeRow
import MarketReplay.Records.Market

/-!
# Bars from JSON documents

A document of bars is a list: of bar records, or of exchange rows. Its first element decides which
of the two all of them have to be. A document that is neither is refused as a whole, and so is one
with a single bad element; there is no series of the good ones.

The faults of the two kinds differ. A bad row is named by its index and its field, since rows are
checked one after another here; a bad record is only known to be one, since records are decoded as a
whole.
-/

set_option autoImplicit false

namespace MarketReplay

/-- The bars of a document. An empty list is a series without bars, of either kind. -/
def barsOfDocument {α : Type} [Scalar α] [DecimalText α] :
    Json α → Except (Fault α) (List (Bar α))
  | .list [] => .ok []
  | .list (.list first :: rest) => barsOfRows (.list first :: rest)
  | .list records =>
    match records.mapM Bar.ofJson? with
    | some bars => .ok bars
    | none => .error .document
  | _ => .error (.source .notAListOfBars)

/-- The document in a text, its numbers read by their 64-bit significands. What is no JSON is a
fault without details. -/
def documentOfText (text : List Char) : Except (Fault Float) (Json Float) :=
  match Json.document? Decimal.Literal.scaled text with
  | some j => .ok j
  | none => .error .document

end MarketReplay
