import MarketReplay.Text.Pattern.Escape

/-!
# Bracketed classes in patterns

A class in square brackets lists characters, ranges of characters, named ASCII classes and further
classes in brackets. Doubled signs combine what stands before them with what stands after them. A
hyphen at the start is a character, and so is a closing bracket that would leave the class empty.

Reading a class answers how high it is, as a tree of classes in classes.
-/

set_option autoImplicit false

namespace MarketReplay.Text.Pattern

/-- The height of a node above parts of these heights; a single part has no node above it. -/
def heightOver : List Nat → Nat
  | [] => 0
  | [h] => h
  | heights => 1 + heights.foldl Nat.max 0

/-- A class whose closing bracket has not come yet. -/
structure OpenClass where
  /-- The heights of what is listed since the last combining sign. -/
  items : List Nat
  /-- The height of what stands before that sign. -/
  operand : Option Nat
  /-- Nothing but hyphens has come. -/
  fresh : Bool

namespace OpenClass

def start : OpenClass := ⟨[], none, true⟩

def add (k : OpenClass) (height : Nat) : OpenClass :=
  { k with items := height :: k.items, fresh := false }

/-- The height of what is listed. -/
def height (k : OpenClass) : Nat :=
  match k.operand with
  | none => heightOver k.items
  | some before => heightOver [before, heightOver k.items]

/-- The class after a combining sign. -/
def combined (k : OpenClass) : OpenClass := ⟨[], some k.height, false⟩

end OpenClass

def classNames : List String :=
  ["alnum", "alpha", "ascii", "blank", "cntrl", "digit", "graph", "lower", "print", "punct",
    "space", "upper", "word", "xdigit"]

/-- A named class after its opening bracket, and whether it is turned round. -/
def readNamedClass? : List Char → Option (Bool × List Char)
  | ':' :: text =>
    let negated := text.head? == some '^'
    let text := if negated then text.drop 1 else text
    match text.dropWhile (· != ':') with
    | ':' :: ']' :: rest =>
      if classNames.contains (String.ofList (text.takeWhile (· != ':'))) then
        some (negated, rest)
      else none
    | _ => none
  | _ => none

/-- Whether a class can list a character: bytewise, ASCII characters only. -/
def listable (m : Mode) (c : Char) : Bool :=
  m.hasCharacters && (!m.bytewise || c.toNat < 0x80)

/-- A character in a list, or none for a class named by an escape. -/
def readListed? (m : Mode) (c : Char) (rest : List Char) : Option (Option Char × List Char) :=
  if c = '\\' then
    match readEscape? m rest with
    | some (.character c, rest) => if listable m c then some (some c, rest) else none
    | some (.charClass, rest) => some (none, rest)
    | _ => none
  else if listable m c then some (some c, rest)
  else none

/-- Reads a character of a list, or a range if a hyphen and another character follow. A hyphen
before the closing bracket or before another hyphen makes no range. -/
def readRange? (m : Mode) (c : Char) (rest : List Char) : Option (List Char) := do
  let (low, rest) ← readListed? m c rest
  match m.skip rest with
  | [] => none
  | '-' :: after =>
    if m.ahead? after == some ']' || m.ahead? after == some '-' then some ('-' :: after)
    else
      match m.skip after with
      | [] => none
      | c :: more =>
        let (high, rest) ← readListed? m c more
        if (← low) ≤ (← high) then some rest else none
  | rest => some rest

/-- The start of a class after its opening bracket. Bytewise a class cannot be turned round, for
then it would hold bytes that make no text. -/
def openClass? (m : Mode) (text : List Char) : Option (List Char) :=
  match m.skip text with
  | '^' :: rest => if m.bytewise then none else some rest
  | rest => some rest

/-- Reads the rest of a class, with the classes around it, innermost first. -/
def readClass? (m : Mode) : Nat → List OpenClass → OpenClass → List Char →
    Option (Nat × List Char)
  | 0, _, _, _ => none
  | fuel + 1, around, k, text =>
    match m.skip text with
    | [] => none
    | c :: rest =>
      if k.fresh && c == '-' then
        if listable m c then readClass? m fuel around { k.add 0 with fresh := true } rest else none
      else if k.fresh && k.items.isEmpty && c == ']' then
        if listable m c then readClass? m fuel around (k.add 0) rest else none
      else if c == '[' then
        match readNamedClass? rest with
        | some (negated, rest) =>
          if m.hasCharacters && !(m.bytewise && negated) then
            readClass? m fuel around (k.add 0) rest
          else none
        | none => (openClass? m rest).bind (readClass? m fuel (k :: around) .start)
      else if c == ']' then
        match around with
        | [] => some (1 + k.height, rest)
        | outer :: around => readClass? m fuel around (outer.add (1 + k.height)) rest
      else if ['&', '-', '~'].contains c && rest.head? == some c then
        readClass? m fuel around k.combined (rest.drop 1)
      else (readRange? m c rest).bind (readClass? m fuel around (k.add 0))

/-- Reads a class after its opening bracket. -/
def readBracketed? (m : Mode) (text : List Char) : Option (Nat × List Char) :=
  (openClass? m text).bind (readClass? m (text.length + 1) [] .start)

end MarketReplay.Text.Pattern
