import MarketReplay.Width

/-!
# Decimal literals

A literal is a sign, digits before and after a point, and a power of ten. It is read once and can
then be turned into a float in two ways: `nearest` is the float nearest to the number written, and
`scaled` is what a reader gets that collects the digits in a 64-bit significand and applies the
power of ten by one rounding operation. The two agree on short literals and may differ in the last
bit on long ones.
-/

set_option autoImplicit false

namespace MarketReplay.Decimal

/-- The number named by a list of digit characters. Nothing is checked here; the characters come
from `spanDigits`. -/
def digitsValue (digits : List Char) : Nat :=
  digits.foldl (fun n c => 10 * n + (c.toNat - '0'.toNat)) 0

/-- Splits off the digits a text starts with. -/
def spanDigits (text : List Char) : List Char × List Char :=
  (text.takeWhile Char.isDigit, text.dropWhile Char.isDigit)

/-- A sign, the digits before and after the point, and the exponent, all as written. What number it
stands for is another question, with more than one answer. -/
structure Literal where
  negative : Bool
  whole : List Char
  fraction : List Char
  exponent : Int
deriving DecidableEq, Repr

namespace Literal

def signed (negative : Bool) (x : Float) : Float := if negative then -x else x

/-- The float nearest to the number written. Exponents far outside the range of doubles are
settled by counting digits, so that no power of ten has to be computed for them. -/
def nearest (l : Literal) : Float :=
  let m := digitsValue (l.whole ++ l.fraction)
  let e := l.exponent - l.fraction.length
  let size := e + (Nat.toDigits 10 m).length
  signed l.negative <|
    if m = 0 ∨ size < -330 then 0
    else if 310 < size then 1.0 / 0.0
    else if e < 0 then Float.ofScientific m true e.natAbs
    else Float.ofScientific m false e.natAbs

/-! ## The significand reading

How numbers in documents are read: into a significand of 64 bits first, as many digits as go in.
This is not always the nearest float, and it is what the program gets. -/

/-- The significand and power of ten after the digits before the point: from the first digit that
would pass 64 bits on, digits only count. -/
def wholePart : List Char → Nat → Nat → Nat × Nat
  | [], significand, dropped => (significand, dropped)
  | c :: rest, significand, dropped =>
    let next := 10 * significand + (c.toNat - '0'.toNat)
    if dropped = 0 ∧ next < twoTo 64 then wholePart rest next 0
    else wholePart rest significand (dropped + 1)

/-- Appends digits after the point until one would pass 64 bits; the others are ignored. -/
def fractionPart : List Char → Nat → Int → Nat × Int
  | [], significand, e => (significand, e)
  | c :: rest, significand, e =>
    let next := 10 * significand + (c.toNat - '0'.toNat)
    if next < twoTo 64 then fractionPart rest next (e - 1) else (significand, e)

def powerOfTen (n : Nat) : Float := Float.ofScientific 1 false n

/-- Multiplies by `10^e`, in steps of `10^-308` where one division does not reach. There is no
answer beyond the largest double. -/
def shift (x : Float) (e : Int) : Option Float :=
  if e.natAbs ≤ 308 then
    if 0 ≤ e then
      let y := x * powerOfTen e.natAbs
      if y.isInf then none else some y
    else some (x / powerOfTen e.natAbs)
  else if x == 0 then some x
  else if 0 < e then none
  else shift (x / powerOfTen 308) (e + 308)
termination_by e.natAbs
decreasing_by omega

/-- The float reached from the 64-bit significand by one rounding operation, if it is finite. -/
def scaled (l : Literal) : Option Float :=
  let (head, dropped) := wholePart l.whole 0 0
  let (significand, e) := fractionPart l.fraction head dropped
  (shift (UInt64.ofNat significand).toFloat (e + l.exponent)).map (signed l.negative)

end Literal

/-! ## Reading

Numbers in fields and on command lines. A text is a number as a whole or not at all; blanks around
it are the caller's to trim. -/

/-- An optional sign: whether it is a minus, and the rest. -/
def spanSign : List Char → Bool × List Char
  | '-' :: rest => (true, rest)
  | '+' :: rest => (false, rest)
  | text => (false, text)

/-- An exponent part `e`, sign, digits; a text that starts otherwise has exponent zero. -/
def readExponent? : List Char → Option Int
  | [] => some 0
  | c :: rest =>
    if c = 'e' ∨ c = 'E' then
      let (negative, body) := spanSign rest
      let (digits, after) := spanDigits body
      if digits.isEmpty ∨ !after.isEmpty then none
      else some (if negative then -(digitsValue digits : Int) else digitsValue digits)
    else none

/-- A decimal number: digits with an optional point, at least one digit in all, and an optional
exponent. -/
def readLiteral? (negative : Bool) (text : List Char) : Option Literal :=
  let (whole, rest) := spanDigits text
  let (fraction, rest) := match rest with
    | '.' :: more => spanDigits more
    | _ => ([], rest)
  if whole.isEmpty && fraction.isEmpty then none
  else (readExponent? rest).map fun e => ⟨negative, whole, fraction, e⟩

/-- A float: a decimal number, or `inf`, `infinity` or `nan` in any case, after an optional
sign. -/
def readFloat? (text : List Char) : Option Float :=
  let (negative, body) := spanSign text
  let word := String.ofList (body.map Char.toLower)
  if word = "inf" ∨ word = "infinity" then some (Literal.signed negative (1.0 / 0.0))
  else if word = "nan" then some (0.0 / 0.0)
  else (readLiteral? negative body).map Literal.nearest

/-- A whole number of a range: an optional sign and digits. A minus sign is refused where nothing
negative is allowed, before a zero as well. -/
def readInt? (range : IntRange) (text : List Char) : Option Int :=
  let (negative, body) := spanSign text
  if body.isEmpty || !body.all Char.isDigit || (negative && 0 ≤ range.low) then none
  else
    let n : Int := digitsValue body
    let n := if negative then -n else n
    if n ∈ range then some n else none

/-- The range of signed 64-bit integers. -/
def readInt64? (text : List Char) : Option Int := readInt? (.signed 64) text

/-- The range of unsigned 64-bit integers. -/
def readNat64? (text : List Char) : Option Nat := (readInt? (.unsigned 64) text).map Int.toNat

end MarketReplay.Decimal
