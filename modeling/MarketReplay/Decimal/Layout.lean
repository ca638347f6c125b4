import MarketReplay.Decimal.Shortest

/-!
# Laying digits out

The same digits are written differently in a message and in a document. A `Layout` holds the
decisions of one such format: which numbers are written positionally, whether a whole number
keeps `.0`, which way a tie between two shortest names goes, and the words for what is no number.
-/

set_option autoImplicit false

namespace MarketReplay.Decimal

structure Layout where
  tie : Tie
  /-- Whether a number whose leading digit stands at `10^k` is written without an exponent. -/
  positional : Int → Bool
  /-- Whether a positional whole number ends in `.0`. -/
  pointZero : Bool
  notANumber : String
  /-- The text of an infinity, by its sign. -/
  infinite : Bool → String

/-- The layout of messages: never an exponent, no `.0`. A number that looks whole is written as
one. -/
def Layout.message : Layout where
  tie := .up
  positional := fun _ => true
  pointZero := false
  notANumber := "NaN"
  infinite := fun negative => if negative then "-inf" else "inf"

/-- The layout of documents: positional from `0.00001` up to `10^16`, whole numbers with `.0`,
other numbers with a signed exponent. What is no number has no literal of its own. -/
def Layout.document : Layout where
  tie := .even
  positional := fun k => -5 ≤ k && k < 16
  pointZero := true
  notANumber := "null"
  infinite := fun _ => "null"

def zeros (n : Nat) : String := String.ofList (List.replicate n '0')

/-- Digits with the point in its place. -/
def Digits.positionalText (pointZero : Bool) (d : Digits) : String :=
  let text := Nat.repr d.coefficient
  if 0 ≤ d.exponent then
    text ++ zeros d.exponent.toNat ++ (if pointZero then ".0" else "")
  else
    let places := (-d.exponent).toNat
    if places < text.length then
      let cut := text.length - places
      String.ofList (text.toList.take cut) ++ "." ++ String.ofList (text.toList.drop cut)
    else "0." ++ zeros (places - text.length) ++ text

/-- One digit before the point, the others after it, and the exponent with its sign. -/
def Digits.exponentText (d : Digits) : String :=
  let text := Nat.repr d.coefficient
  let k := d.exponent + text.length - 1
  let tail := text.toList.drop 1
  String.ofList (text.toList.take 1)
    ++ (if tail.isEmpty then "" else "." ++ String.ofList tail)
    ++ (if k < 0 then "e-" else "e+") ++ Nat.repr k.natAbs

/-- The text of a float in a layout. The sign stands apart, so that a zero keeps it too. -/
def Layout.write (l : Layout) (x : Float) : String :=
  match magnitude x with
  | .notANumber => l.notANumber
  | .infinite negative => l.infinite negative
  | .finite negative m q =>
    let d := if m = 0 then ⟨0, 0⟩ else shortest l.tie m q
    let k := d.exponent + digitCount d.coefficient - 1
    (if negative then "-" else "")
      ++ (if l.positional k then d.positionalText l.pointZero else d.exponentText)

end MarketReplay.Decimal
