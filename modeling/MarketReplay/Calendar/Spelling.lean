import MarketReplay.Calendar.Instant
import MarketReplay.Decimal.Literal
import MarketReplay.Text.Blank

/-!
# Spellings of an instant

A timestamp field may hold a number, a date with a time and an offset, or one of a few plainer
forms, which are taken to be UTC. The forms are tried in a fixed order and the first that fits the
whole text decides:

1. a 64-bit integer: milliseconds, or seconds when it is small;
2. the internet form, `2024-01-31T12:30:00.250+01:00`;
3. the forms of `dateTimeForms` and then `dateForms`.

The plainer forms are lists of parts. Numbers in them may be short and may have blanks before them;
the internet form is exact to the character.

The first form and the order of all of them are the program's own. For the second and third the
program asks an outside date library, with one call for the internet form and with a pattern for
each plainer one. What stands here for the library is its documented behaviour, written out: RFC
3339 with the liberties the library takes (a small `t`, a blank for the `T`, the mathematical
minus), and the parts of a pattern with the digits and blanks they accept.
-/

set_option autoImplicit false

namespace MarketReplay.Calendar

open MarketReplay.Decimal (digitsValue spanDigits readInt64?)
open MarketReplay.Text (isBlank trim trimStart)

/-- A date and a time of day as spelled, before they are checked. The forms fill it in part by part;
what a form does not mention keeps the value of the start. -/
structure Spelled where
  year : Int
  month : Nat
  day : Nat
  hour : Nat
  minute : Nat
  second : Nat
  millis : Nat
deriving DecidableEq, Repr

/-- The midnight at which a form begins. The forms of a date alone never change the time of day. -/
def Spelled.start : Spelled := ⟨0, 1, 1, 0, 0, 0, 0⟩

/-- The instant spelled, if date and time exist. Second 60 is allowed in every minute: which minutes
had a leap second is not known, and it comes to the first second of the next minute. -/
def Spelled.instant? (s : Spelled) : Option Int :=
  let date : Date := ⟨s.year, s.month, s.day⟩
  if date.isValid ∧ firstYear ≤ s.year ∧ s.year ≤ lastYear
      ∧ s.hour < 24 ∧ s.minute < 60 ∧ s.second ≤ 60 then
    some (instantOf date.dayNumber s.hour s.minute s.second s.millis)
  else none

/-! ## Numbers -/

/-- A number of `least` to `most` digits; the digits after the `most`-th are left. A part takes as
many digits as it may, and does not give any back for the part behind it. -/
def digits? (least most : Nat) (text : List Char) : Option (Nat × List Char) :=
  let taken := (text.takeWhile Char.isDigit).take most
  if taken.length < least ∨ taken.isEmpty then none
  else some (digitsValue taken, text.drop taken.length)

/-- The milliseconds of the digits after a point, of which the first three count. Fewer are filled
up with zeros, and the rest is cut off and not rounded. -/
def millisOf (digits : List Char) : Nat :=
  digitsValue ((digits ++ ['0', '0', '0']).take 3)

/-- A point and digits, if a point comes next. A point without digits is refused, and no point is no
fraction. -/
def fraction? : List Char → Option (Nat × List Char)
  | '.' :: rest =>
    match spanDigits rest with
    | ([], _) => none
    | (digits, rest) => some (millisOf digits, rest)
  | text => some (0, text)

/-! ## The internet form

The form in which machines write instants to each other. Every part has its fixed number of digits,
and the offset has to be there. -/

/-- The rest of a text after a character it starts with. -/
def after? (c : Char) : List Char → Option (List Char)
  | d :: rest => if d = c then some rest else none
  | [] => none

/-- An offset from UTC in minutes: `Z`, or a sign, hours, a colon and minutes. The minus sign may
be the mathematical one. -/
def offset? : List Char → Option (Int × List Char)
  | [] => none
  | c :: rest =>
    if c = 'Z' ∨ c = 'z' then some (0, rest)
    else if c = '+' ∨ c = '-' ∨ c.toNat = 0x2212 then do
      let (hours, rest) ← digits? 2 2 rest
      let rest ← after? ':' rest
      let (minutes, rest) ← digits? 2 2 rest
      if hours < 24 ∧ minutes < 60 then
        -- an offset of a whole day or more is none
        let total : Int := 60 * hours + minutes
        some (if c = '+' then total else -total, rest)
      else none
    else none

/-- The instant of a text in the internet form. The offset is what local clocks are ahead of UTC by,
so it is taken off. -/
def internetInstant? (text : List Char) : Option Int := do
  let (year, rest) ← digits? 4 4 text
  let rest ← after? '-' rest
  let (month, rest) ← digits? 2 2 rest
  let rest ← after? '-' rest
  let (day, rest) ← digits? 2 2 rest
  let rest ← match rest with
    | c :: rest => if c = 'T' ∨ c = 't' ∨ c = ' ' then some rest else none
    | [] => none
  let (hour, rest) ← digits? 2 2 rest
  let rest ← after? ':' rest
  let (minute, rest) ← digits? 2 2 rest
  let rest ← after? ':' rest
  let (second, rest) ← digits? 2 2 rest
  let (millis, rest) ← fraction? rest
  let (offset, rest) ← offset? rest
  if rest.isEmpty then
    let instant ← (Spelled.mk year month day hour minute second millis).instant?
    some (instant - 60000 * offset)
  else none

/-! ## The plainer forms

Forms as people write them and spreadsheets do. They have no offset, and stand for UTC. -/

/-- A part of a form. A form is a list of these, so that reading is one recursion along it and a
further form would be one further list. -/
inductive Part where
  | year
  | month
  | day
  | hour
  | minute
  | second
  | fraction
  | blanks
  | sign (c : Char)
deriving DecidableEq, Repr

/-- A year: up to four digits, or a sign and any number of digits. Without the limit the digits of a
date without signs would all be taken for its year. -/
def year? (text : List Char) : Option (Int × List Char) :=
  match text with
  | '-' :: rest => (digits? 1 rest.length rest).map fun (n, rest) => (-(n : Int), rest)
  | '+' :: rest => (digits? 1 rest.length rest).map fun (n, rest) => ((n : Int), rest)
  | _ => (digits? 1 4 text).map fun (n, rest) => ((n : Int), rest)

/-- Reads one part from the front of a text. Numbers may have blanks before them, a sign may not. -/
def Part.scan (p : Part) (s : Spelled) (text : List Char) : Option (Spelled × List Char) :=
  let two := digits? 1 2 (trimStart text)
  match p with
  | .year => (year? (trimStart text)).map fun (n, rest) => ({ s with year := n }, rest)
  | .month => two.map fun (n, rest) => ({ s with month := n }, rest)
  | .day => two.map fun (n, rest) => ({ s with day := n }, rest)
  | .hour => two.map fun (n, rest) => ({ s with hour := n }, rest)
  | .minute => two.map fun (n, rest) => ({ s with minute := n }, rest)
  | .second => two.map fun (n, rest) => ({ s with second := n }, rest)
  | .fraction => (fraction? text).map fun (n, rest) => ({ s with millis := n }, rest)
  | .blanks => some (s, trimStart text)
  | .sign c => (after? c text).map fun rest => (s, rest)

/-- What a whole text spells in a form. Nothing may be left over, so that of two forms that begin
alike the longer one still gets its turn. -/
def spelled? : List Part → Spelled → List Char → Option Spelled
  | [], s, text => if text.isEmpty then some s else none
  | p :: rest, s, text =>
    match p.scan s text with
    | some (s, text) => spelled? rest s text
    | none => none

def dateParts (between : Char) : List Part :=
  [.year, .sign between, .month, .sign between, .day]

def timeParts : List Part := [.hour, .sign ':', .minute, .sign ':', .second]

/-- The forms with a time of day, in the order in which they are tried. A text is read by the first
form that takes all of it, and the forms that are tried later do not come into play. -/
def dateTimeForms : List (List Part) := [
  dateParts '-' ++ [.blanks] ++ timeParts,
  dateParts '-' ++ [.sign 'T'] ++ timeParts,
  dateParts '-' ++ [.blanks] ++ timeParts ++ [.fraction],
  dateParts '/' ++ [.blanks] ++ timeParts]

/-- The forms of a date alone, which stand for its midnight. They are tried last and with the same
parts as the others. -/
def dateForms : List (List Part) := [dateParts '-', dateParts '/']

def formInstant? (text : List Char) (form : List Part) : Option Int :=
  (spelled? form Spelled.start text).bind Spelled.instant?

/-! ## Timestamps -/

/-- Integers nearer to zero than this count seconds, and others milliseconds. As seconds it is more
than three thousand years from 1970, as milliseconds little more than three. -/
def secondsCutoff : Nat := 100000000000

/-- The instant of an integer. Both sides of the comparison and the product are 64-bit words, which
matters for one text only: the least integer of 64 bits has no magnitude among them, so it counts as
small, and its product with a thousand has no bits left. -/
def ofInteger (n : Int) : Int :=
  if inWord n.natAbs < secondsCutoff then inWord (1000 * n) else n

/-- The instant that a trimmed text spells. A text that is an integer is never looked at as a date,
even if the integer makes no sense as an instant. -/
def trimmedInstant? (text : List Char) : Option Int :=
  match readInt64? text with
  | some n => some (ofInteger n)
  | none =>
    match internetInstant? text with
    | some instant => some instant
    | none => (dateTimeForms ++ dateForms).findSome? (formInstant? text)

/-- The instant that a text spells; blanks around it do not count. -/
def instant? (text : List Char) : Option Int := trimmedInstant? (trim text)

end MarketReplay.Calendar
