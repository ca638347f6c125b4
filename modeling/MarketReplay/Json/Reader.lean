import MarketReplay.Decimal.Literal
import MarketReplay.Json.Value
import MarketReplay.Text.Hexadecimal

/-!
# Reading JSON text

The grammar is the strict one: no comments, no trailing commas, no raw control characters in
strings, no leading zeros. What a number is worth is left to the caller, who gives the reading of
literals (`real`); whole numbers that fit 64 bits are kept as integers, except a negative zero,
which no integer is.

The functions recurse on a fuel that `parse?` sets to twice the length of the text: of two calls one
inside the other at least one has consumed a character, so the fuel never runs out first.

In the program an outside library reads JSON. This is the grammar it documents, with its limit on
the depth and its reading of numbers; what is proved about documents of bars starts behind it, from
a value.
-/

set_option autoImplicit false

namespace MarketReplay.Json

open MarketReplay.Decimal (Literal digitsValue spanDigits)
open MarketReplay.Text (hexValue?)

variable {α : Type}

def skipBlanks (text : List Char) : List Char :=
  text.dropWhile fun c => c == ' ' || c == '\t' || c == '\n' || c == '\r'

/-! ## Strings

The contents of a string are kept in reverse while they are read. A pair of escapes can stand for
one character beyond the first 65536, and half of such a pair stands for none. -/

/-- The number of four hexadecimal digits. -/
def hexUnit? (a b c d : Char) : Option Nat := do
  return ((← hexValue? a) * 16 + (← hexValue? b)) * 256 + (← hexValue? c) * 16 + (← hexValue? d)

/-- The character a letter after a backslash stands for. -/
def escapeChar? : Char → Option Char
  | '"' => some '"'
  | '\\' => some '\\'
  | '/' => some '/'
  | 'b' => some (Char.ofNat 8)
  | 'f' => some (Char.ofNat 12)
  | 'n' => some '\n'
  | 'r' => some '\r'
  | 't' => some '\t'
  | _ => none

/-- The rest of a string after its opening quote, with the characters so far in reverse. `sound`
turns false at half of a surrogate pair; the string then has no value. -/
def stringBody (sound : Bool) (sofar : List Char) :
    List Char → Option (Option String × List Char)
  | [] => none
  | '"' :: rest => some (if sound then some (String.ofList sofar.reverse) else none, rest)
  | '\\' :: 'u' :: a :: b :: c :: d :: '\\' :: 'u' :: e :: f :: g :: h :: rest =>
    match hexUnit? a b c d, hexUnit? e f g h with
    | some high, some low =>
      if 0xD800 ≤ high ∧ high < 0xDC00 ∧ 0xDC00 ≤ low ∧ low < 0xE000 then
        stringBody sound
          (Char.ofNat (0x10000 + (high - 0xD800) * 0x400 + (low - 0xDC00)) :: sofar) rest
      else
        stringBody (sound && !(0xD800 ≤ high && high < 0xE000)) (Char.ofNat high :: sofar)
          ('\\' :: 'u' :: e :: f :: g :: h :: rest)
    | _, _ => none
  | '\\' :: 'u' :: a :: b :: c :: d :: rest =>
    match hexUnit? a b c d with
    | some unit =>
      stringBody (sound && !(0xD800 ≤ unit && unit < 0xE000)) (Char.ofNat unit :: sofar) rest
    | none => none
  | '\\' :: c :: rest =>
    match escapeChar? c with
    | some c => stringBody sound (c :: sofar) rest
    | none => none
  | c :: rest => if c.toNat < 0x20 then none else stringBody sound (c :: sofar) rest

/-! ## Numbers

A number is first taken apart into a literal, whole part, fraction and exponent; what it is worth is
decided when all of it is known. -/

/-- The digits before the point: a zero alone, or digits that do not start with one. A zero in front
of other digits is refused, as the format has it. -/
def wholeDigits? (text : List Char) : Option (List Char × List Char) :=
  match spanDigits text with
  | ([], _) => none
  | ('0' :: _ :: _, _) => none
  | split => some split

def fractionDigits? : List Char → Option (List Char × List Char)
  | '.' :: rest =>
    match spanDigits rest with
    | ([], _) => none
    | split => some split
  | text => some ([], text)

/-- An exponent, if one follows. -/
def exponentPart? : List Char → Option (Option Int × List Char)
  | c :: rest =>
    if c = 'e' ∨ c = 'E' then
      let (negative, body) := Decimal.spanSign rest
      match spanDigits body with
      | ([], _) => none
      | (digits, after) =>
        let e : Int := digitsValue digits
        some (some (if negative then -e else e), after)
    else some (none, c :: rest)
  | [] => some (none, [])

/-- The whole number of a literal without point and exponent, if it fits 64 bits: with a sign below
zero, and without one otherwise. Larger ones are numbers like those with a point. -/
def wholeNumber? (l : Literal) : Option Int :=
  let n : Int := digitsValue l.whole
  if l.negative then
    if 0 < n ∧ -n ∈ IntRange.signed 64 then some (-n) else none
  else if n ∈ IntRange.unsigned 64 then some n else none

def ofReal? : Option α → Json α
  | some x => .real x
  | none => .unreadable

def number? (real : Literal → Option α) (text : List Char) : Option (Json α × List Char) := do
  let (negative, rest) := match text with
    | '-' :: rest => (true, rest)
    | _ => (false, text)
  let (whole, rest) ← wholeDigits? rest
  let (fraction, rest) ← fractionDigits? rest
  let (exponent, rest) ← exponentPart? rest
  let literal : Literal := ⟨negative, whole, fraction, exponent.getD 0⟩
  let value := match fraction, exponent with
    | [], none => match wholeNumber? literal with
      | some n => .int n
      | none => ofReal? (real literal)
    | _, _ => ofReal? (real literal)
  return (value, rest)

/-! ## Values

One function each for a value, for the items of a list and for the members of an object. Blanks are
skipped before a token and never behind one. -/

/-- The rest of a text after a word it starts with. -/
def afterWord? (word text : List Char) : Option (List Char) :=
  if word.isPrefixOf text then some (text.drop word.length) else none

/-- An object of the members read; a key without a value takes the object's own with it. -/
def ofMembers (members : List (Option String × Json α)) : Json α :=
  match members.mapM fun m => m.1.map fun k => (k, m.2) with
  | some members => .object members
  | none => .unreadable

mutual

def value? (real : Literal → Option α) : Nat → List Char → Option (Json α × List Char)
  | 0, _ => none
  | fuel + 1, text =>
    match skipBlanks text with
    | '"' :: rest => do
      let (s, rest) ← stringBody true [] rest
      return (match s with | some s => .string s | none => .unreadable, rest)
    | '[' :: rest =>
      match skipBlanks rest with
      | ']' :: rest => some (.list [], rest)
      | rest => do
        let (items, rest) ← items? real fuel rest
        return (.list items, rest)
    | '\x7b' :: rest =>
      match skipBlanks rest with
      | '\x7d' :: rest => some (.object [], rest)
      | rest => do
        let (members, rest) ← members? real fuel rest
        return (ofMembers members, rest)
    | 't' :: rest => (afterWord? ['r', 'u', 'e'] rest).map (.bool true, ·)
    | 'f' :: rest => (afterWord? ['a', 'l', 's', 'e'] rest).map (.bool false, ·)
    | 'n' :: rest => (afterWord? ['u', 'l', 'l'] rest).map (.null, ·)
    | rest => number? real rest

/-- The items of a list up to its closing bracket; there is at least one. -/
def items? (real : Literal → Option α) : Nat → List Char → Option (List (Json α) × List Char)
  | 0, _ => none
  | fuel + 1, text => do
    let (item, rest) ← value? real fuel text
    match skipBlanks rest with
    | ',' :: rest => do
      let (items, rest) ← items? real fuel rest
      return (item :: items, rest)
    | ']' :: rest => return ([item], rest)
    | _ => none

/-- The members of an object up to its closing brace; there is at least one. -/
def members? (real : Literal → Option α) :
    Nat → List Char → Option (List (Option String × Json α) × List Char)
  | 0, _ => none
  | fuel + 1, text =>
    match skipBlanks text with
    | '"' :: rest => do
      let (key, rest) ← stringBody true [] rest
      match skipBlanks rest with
      | ':' :: rest => do
        let (item, rest) ← value? real fuel rest
        match skipBlanks rest with
        | ',' :: rest => do
          let (members, rest) ← members? real fuel rest
          return ((key, item) :: members, rest)
        | '\x7d' :: rest => return ([(key, item)], rest)
        | _ => none
      | _ => none
    | _ => none

end

/-- The value of a whole text; blanks may stand around it and nothing else. The recursion is bounded
by twice the length of the text, since of two steps in a row at least one takes a character. -/
def parse? (real : Literal → Option α) (text : List Char) : Option (Json α) := do
  let (j, rest) ← value? real (2 * text.length + 2) text
  if (skipBlanks rest).isEmpty then some j else none

/-- The deepest nesting a document may have. -/
def depthLimit : Nat := 127

/-- The value of a document: everything in it has to be readable, within the depth limit, and of two
members with one key the last counts. This is what a reader gets that builds the whole tree before
anything looks at it. -/
def document? (real : Literal → Option α) (text : List Char) : Option (Json α) := do
  let j ← parse? real text
  if j.isSound depthLimit then some j.settled else none

end MarketReplay.Json
