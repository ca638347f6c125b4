import MarketReplay.Text.Blank
import MarketReplay.Text.Hexadecimal

/-!
# Escapes in patterns

What may follow a backslash in a pattern. Signs stand for themselves, some letters for control
characters, classes or places between characters, and three letters announce the number of a
character in hexadecimal digits.

The dialect has no tables of Unicode. Classes of characters and the folding of case exist only
bytewise, where they speak of ASCII alone. The ends of words can be written in both ways, but only
bytewise can they be told.
-/

set_option autoImplicit false

namespace MarketReplay.Text.Pattern

/-- How a stretch of a pattern is read. -/
structure Mode where
  /-- A letter stands for both its cases. -/
  foldsCase : Bool
  /-- The pattern speaks of bytes and not of characters. -/
  bytewise : Bool
  /-- Blanks and comments between the parts do not count. -/
  spaced : Bool
deriving DecidableEq, Repr

namespace Mode

def plain : Mode := ⟨false, false, false⟩

/-- A text without the blanks and comments at its start; a comment runs from a number sign to the
end of the line. -/
def skipSpaced (inComment : Bool) : List Char → List Char
  | [] => []
  | c :: rest =>
    if inComment then skipSpaced (c != '\n') rest
    else if c == '#' then skipSpaced true rest
    else if isBlank c then skipSpaced false rest
    else c :: rest

/-- A text without what does not count at its start. -/
def skip (m : Mode) (text : List Char) : List Char :=
  if m.spaced then skipSpaced false text else text

/-- The character that a look ahead takes for the next one that counts. It passes over blanks and
over one number sign among them, but not over the comment that the sign opens. -/
def ahead? (m : Mode) (text : List Char) : Option Char :=
  if m.spaced then
    match text.dropWhile isBlank with
    | '#' :: rest => (rest.dropWhile isBlank).head?
    | rest => rest.head?
  else text.head?

/-- Whether single characters can be spoken of at all. -/
def hasCharacters (m : Mode) : Bool := m.bytewise || !m.foldsCase

end Mode

/-- What an escape stands for. -/
inductive Escape where
  | character (c : Char)
  /-- A class of ASCII characters. -/
  | charClass
  /-- A place between two characters. -/
  | place
  /-- A place between two characters at which a word of any script ends or does not end. -/
  | wordPlace
deriving DecidableEq, Repr

/-- The signs of ASCII that a backslash turns into themselves. -/
def isSign (c : Char) : Bool := c.toNat < 0x80 && !c.isAlphanum && c != '<' && c != '>'

/-- The control characters with letters of their own. -/
def controlCharacter? : Char → Option Char
  | 'a' => some (Char.ofNat 0x07)
  | 't' => some '\t'
  | 'n' => some '\n'
  | 'v' => some (Char.ofNat 0x0B)
  | 'f' => some (Char.ofNat 0x0C)
  | 'r' => some '\r'
  | _ => none

/-- The number in a fixed count of hexadecimal digits, after the number read so far. -/
def readCode? (m : Mode) : Nat → Nat → List Char → Option (Nat × List Char)
  | 0, code, text => some (code, m.skip text)
  | n + 1, code, text =>
    match m.skip text with
    | [] => none
    | c :: rest => (hexValue? c).bind fun d => readCode? m n (16 * code + d) rest

/-- The character whose number is given in so many digits. -/
def numberedCharacter? (m : Mode) (digits : Nat) (text : List Char) :
    Option (Escape × List Char) :=
  match readCode? m digits 0 text with
  | some (code, rest) =>
    if code.isValidChar then some (.character (Char.ofNat code), rest) else none
  | none => none

/-- Two digits are the number of a byte where bytes are spoken of, and only ASCII bytes make
text. -/
def numberedByte? (m : Mode) (text : List Char) : Option (Escape × List Char) :=
  (numberedCharacter? m 2 text).filter fun e =>
    match e.1 with
    | .character c => !m.bytewise || c.toNat < 0x80
    | _ => true

/-- Reads an escape after its backslash. -/
def readEscape? (m : Mode) : List Char → Option (Escape × List Char)
  | [] => none
  | c :: rest =>
    if isSign c then some (.character c, rest)
    else if c = 'x' then numberedByte? m rest
    else if c = 'u' then numberedCharacter? m 4 rest
    else if c = 'U' then numberedCharacter? m 8 rest
    else if ['d', 's', 'w'].contains c then
      if m.bytewise then some (.charClass, rest) else none
    else if ['b', 'B', '<', '>'].contains c then
      some (if m.bytewise then .place else .wordPlace, rest)
    else if ['A', 'z'].contains c then some (.place, rest)
    else (controlCharacter? c).map fun control => (.character control, rest)

end MarketReplay.Text.Pattern
