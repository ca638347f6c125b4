import MarketReplay.Decimal.Layout
import MarketReplay.Json.Value

/-!
# Writing JSON text

Two layouts of one value: without any blanks, or with one element to a line and two blanks per
level. Numbers that are not whole are written by the document layout of `MarketReplay.Decimal`.

Both are recursions on the value that differ in what they put between the parts. The texts are those
of an outside library in the program, down to which characters are escaped and how an empty list
looks.
-/

set_option autoImplicit false

namespace MarketReplay.Json

def fourHex (n : Nat) : String :=
  let digits := Nat.toDigits 16 n
  String.ofList (List.replicate (4 - digits.length) '0' ++ digits)

/-- A character inside a string: quotes, backslashes and control characters are escaped. -/
def escapedChar (c : Char) : String :=
  if c = '"' then "\\\""
  else if c = '\\' then "\\\\"
  else if c = '\n' then "\\n"
  else if c = '\r' then "\\r"
  else if c = '\t' then "\\t"
  else if c.toNat = 8 then "\\b"
  else if c.toNat = 12 then "\\f"
  else if c.toNat < 0x20 then "\\u" ++ fourHex c.toNat
  else String.singleton c

def stringText (s : String) : String :=
  "\"" ++ String.join (s.toList.map escapedChar) ++ "\""

/-- The text of a value that holds no others; lists and objects are the printers' own work. -/
def leafText : Json Float → String
  | .bool true => "true"
  | .bool false => "false"
  | .int n => toString n
  | .real x => Decimal.Layout.document.write x
  | .string s => stringText s
  | _ => "null"

mutual

/-- The value on one line without blanks. -/
def compact : Json Float → String
  | .list items => "[" ++ ",".intercalate (compactItems items) ++ "]"
  | .object members => "\x7b" ++ ",".intercalate (compactMembers members) ++ "\x7d"
  | leaf => leafText leaf

def compactItems : List (Json Float) → List String
  | [] => []
  | j :: rest => compact j :: compactItems rest

def compactMembers : List (String × Json Float) → List String
  | [] => []
  | (k, j) :: rest => (stringText k ++ ":" ++ compact j) :: compactMembers rest

end

/-- Elements between two brackets, one to a line; no elements leave the brackets together. Lists and
objects differ in the brackets and in what an element is. -/
def block (opening closing : String) (level : Nat) (elements : List String) : String :=
  let indent := fun (n : Nat) => "\n" ++ String.ofList (List.replicate (2 * n) ' ')
  if elements.isEmpty then opening ++ closing
  else
    opening ++ ",".intercalate (elements.map fun e => indent (level + 1) ++ e) ++ indent level
      ++ closing

mutual

/-- The value over several lines, at a level of indentation. -/
def indented (level : Nat) : Json Float → String
  | .list items => block "[" "]" level (indentedItems (level + 1) items)
  | .object members => block "\x7b" "\x7d" level (indentedMembers (level + 1) members)
  | leaf => leafText leaf

def indentedItems (level : Nat) : List (Json Float) → List String
  | [] => []
  | j :: rest => indented level j :: indentedItems level rest

def indentedMembers (level : Nat) : List (String × Json Float) → List String
  | [] => []
  | (k, j) :: rest => (stringText k ++ ": " ++ indented level j) :: indentedMembers level rest

end

/-- The value over several lines. -/
def pretty (j : Json Float) : String := indented 0 j

end MarketReplay.Json
