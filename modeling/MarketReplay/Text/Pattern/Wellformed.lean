import MarketReplay.Text.Alphanumeric
import MarketReplay.Text.Pattern.Bracketed

/-!
# Well-formed patterns

Whether a text is a pattern: parts in a row, alternatives between bars, groups in parentheses,
classes in brackets, and marks of repetition after what they repeat. There is no looking around
and no referring back. Braces do not count repetitions: a brace that opens a count is refused,
for where these patterns stand a closing brace ends the pattern.

A group can change the mode of what it holds, or of what follows it in the group around it. Parts
may be nested 250 deep.

A pattern is read as a whole before it is put to use. So one that is malformed anywhere is
malformed, even where the end of a word, which cannot be put to use, comes first.
-/

set_option autoImplicit false

namespace MarketReplay.Text.Pattern

/-- What can be wrong with a pattern. -/
inductive PatternFault where
  | malformed
  /-- The end of a word of any script cannot be told. -/
  | wordPlace
deriving DecidableEq, Repr

def PatternFault.message : PatternFault → String
  | .malformed => "error building NFA"
  | .wordPlace =>
    "unsupported regex feature for DFAs: cannot build DFAs for regexes with Unicode word "
      ++ "boundaries; switch to ASCII word boundaries, or heuristically enable Unicode word "
      ++ "boundaries or use a different regex engine"

/-! ## Modes and names of groups -/

def Mode.set (m : Mode) (on : Bool) : Char → Mode
  | 'i' => { m with foldsCase := on }
  | 'u' => { m with bytewise := !on }
  | 'x' => { m with spaced := on }
  | _ => m

/-- The mode after switches; those after a hyphen are turned off. -/
def Mode.switched (m : Mode) (switches : List Char) : Mode :=
  let on := switches.takeWhile (· != '-')
  let off := (switches.dropWhile (· != '-')).drop 1
  off.foldl (fun m c => m.set false c) (on.foldl (fun m c => m.set true c) m)

/-- Switches are known letters and at most one hyphen, each once, and the hyphen not last. -/
def areSwitches (switches : List Char) : Bool :=
  switches.all ['i', 'm', 's', 'U', 'u', 'R', 'x', '-'].contains && decide switches.Nodup
    && switches.getLast? != some '-'

/-- A name starts with a letter or an underscore; digits and some signs may follow. -/
def isGroupName : List Char → Bool
  | [] => false
  | c :: rest =>
    (c == '_' || isAlphabetic c)
      && rest.all fun c => isAlphanumeric c || ['_', '.', '[', ']'].contains c

/-- How a group opens. -/
inductive Opening where
  | group (mode : Mode) (name : Option (List Char))
  /-- No group but a change of mode for what follows. -/
  | change (mode : Mode)

def readGroupName? (m : Mode) (text : List Char) : Option (Opening × List Char) :=
  let name := text.takeWhile (· != '>')
  match text.dropWhile (· != '>') with
  | _ :: rest => if isGroupName name then some (.group m (some name), rest) else none
  | [] => none

def readSwitches? (m : Mode) (text : List Char) : Option (Opening × List Char) :=
  let isEnd := fun c => c == ':' || c == ')'
  let switches := text.takeWhile fun c => !isEnd c
  match text.dropWhile fun c => !isEnd c with
  | [] => none
  | c :: rest =>
    if !areSwitches switches then none
    else if c == ':' then some (.group (m.switched switches) none, rest)
    else if switches.isEmpty then none
    else some (.change (m.switched switches), rest)

/-- Reads how a group opens, after its parenthesis. -/
def readOpening? (m : Mode) (text : List Char) : Option (Opening × List Char) :=
  match m.skip text with
  | '?' :: '=' :: _ => none
  | '?' :: '!' :: _ => none
  | '?' :: '<' :: '=' :: _ => none
  | '?' :: '<' :: '!' :: _ => none
  | '?' :: 'P' :: '<' :: rest => readGroupName? m rest
  | '?' :: '<' :: rest => readGroupName? m rest
  | '?' :: rest => readSwitches? m rest
  | rest => some (.group m none, rest)

/-! ## Reading a pattern -/

/-- A group whose end has not come yet, or the whole pattern. -/
structure OpenGroup where
  /-- The mode in which its current part is read. -/
  mode : Mode
  /-- The heights of its alternatives that have ended. -/
  branches : List Nat
  /-- The heights of the parts of the current alternative, last first. -/
  parts : List Nat
  /-- Whether a mark of repetition may follow. -/
  repeatable : Bool

namespace OpenGroup

def start (mode : Mode) : OpenGroup := ⟨mode, [], [], false⟩

/-- A part of a height follows. -/
def add (g : OpenGroup) (height : Nat) : OpenGroup :=
  { g with parts := height :: g.parts, repeatable := true }

def height (g : OpenGroup) : Nat := heightOver (heightOver g.parts :: g.branches)

end OpenGroup

/-- Where the reading of a pattern stands. -/
structure Reading where
  here : OpenGroup
  /-- The groups around, innermost first. -/
  around : List OpenGroup
  /-- The names of groups so far. -/
  names : List (List Char)
  /-- Whether the end of a word of any script has come. -/
  hasWordPlace : Bool

def Reading.start : Reading := ⟨.start .plain, [], [], false⟩

namespace Reading

/-- A part of a height follows. -/
def add (r : Reading) (height : Nat) : Reading := { r with here := r.here.add height }

def open? (r : Reading) (rest : List Char) : Option (Reading × List Char) :=
  match readOpening? r.here.mode rest with
  | some (.group mode none, rest) =>
    some ({ r with here := .start mode, around := r.here :: r.around }, rest)
  | some (.group mode (some name), rest) =>
    if r.names.contains name then none
    else
      some ({ r with here := .start mode, around := r.here :: r.around, names := name :: r.names },
        rest)
  | some (.change mode, rest) =>
    some ({ r with here := { r.here.add 0 with mode, repeatable := false } }, rest)
  | none => none

def close? (r : Reading) : Option Reading :=
  match r.around with
  | [] => none
  | outer :: around => some { r with here := outer.add (1 + r.here.height), around }

/-- Another alternative begins. -/
def branch (r : Reading) : Reading :=
  { r with here :=
    { r.here with
      branches := heightOver r.here.parts :: r.here.branches
      parts := []
      repeatable := false } }

/-- The last part is repeated. -/
def repeat? (r : Reading) : Option Reading :=
  match r.here.repeatable, r.here.parts with
  | true, height :: parts => some { r with here := { r.here with parts := (height + 1) :: parts } }
  | _, _ => none

/-- A single character, where there can be one. -/
def character? (r : Reading) : Option Reading :=
  if r.here.mode.hasCharacters then some (r.add 0) else none

def escape? (r : Reading) (rest : List Char) : Option (Reading × List Char) :=
  match readEscape? r.here.mode rest with
  | some (.character _, rest) => r.character?.map (·, rest)
  | some (.wordPlace, rest) => some ({ r.add 0 with hasWordPlace := true }, rest)
  | some (_, rest) => some (r.add 0, rest)
  | none => none

/-- Reads a character and what belongs to it. The point stands for any character, so there is none
bytewise. -/
def step? (r : Reading) (c : Char) (rest : List Char) : Option (Reading × List Char) :=
  match c with
  | '(' => r.open? rest
  | ')' => r.close?.map (·, rest)
  | '|' => some (r.branch, rest)
  | '[' => (readBracketed? r.here.mode rest).map fun (height, rest) => (r.add height, rest)
  | '\\' => r.escape? rest
  | '.' => if r.here.mode.bytewise then none else some (r.add 0, rest)
  | '^' => some (r.add 0, rest)
  | '$' => some (r.add 0, rest)
  | '\x7b' => none
  | _ =>
    if ['?', '*', '+'].contains c then
      r.repeat?.map (·, if rest.head? == some '?' then rest.drop 1 else rest)
    else r.character?.map (·, rest)

/-- Whether all groups are closed and the whole is not too high. -/
def isComplete (r : Reading) : Bool := r.around.isEmpty && r.here.height ≤ 250

end Reading

/-- The reading of a whole text, if the rest of it completes one. Every step takes a character, so
the length of the text is enough of a fuel. -/
def readRest? : Nat → Reading → List Char → Option Reading
  | 0, _, _ => none
  | fuel + 1, r, text =>
    match r.here.mode.skip text with
    | [] => if r.isComplete then some r else none
    | c :: rest =>
      match r.step? c rest with
      | some (r, rest) => readRest? fuel r rest
      | none => none

/-- Checks that a text is a pattern and can be put to use. -/
def checkPattern (text : List Char) : Except PatternFault Unit :=
  match readRest? (text.length + 1) .start text with
  | none => .error .malformed
  | some r => if r.hasWordPlace then .error .wordPlace else .ok ()

end MarketReplay.Text.Pattern
