import MarketReplay.Decimal.Literal
import MarketReplay.Text.Cut
import MarketReplay.Text.Pattern.Wellformed

/-!
# Log filters

A log filter is a list of directives between commas; what is empty between two commas is passed
over. A directive is a level, or what it is about and, after an equals sign, a level. It can be
about a target, about a span in brackets, which may name fields in braces, or about a target and
a span, in this order: `target[span{field=value}]=level`. A directive is read one character at a
time, and a place says what may come next.

Blanks around a directive are passed over while it is read. Its parts, however, are cut out of the
directive with its blanks, at the bytes where they stand without them, so a blank before a
directive moves every part by its width. A part that would begin or end inside a character cannot
be cut out at all.
-/

set_option autoImplicit false

namespace MarketReplay.CommandLine

/-- What can be wrong with a log filter. Only the first fault of the first bad directive is
reported. -/
inductive LogFilterFault where
  | malformedDirective
  /-- The value of a field is no pattern. -/
  | field (fault : Text.Pattern.PatternFault)
  | unknownLevel
  /-- A part begins or ends inside a character. -/
  | splitCharacter
deriving DecidableEq, Repr

def LogFilterFault.message : LogFilterFault → String
  | .malformedDirective => "invalid filter directive"
  | .field fault => "invalid field filter: " ++ fault.message
  | .unknownLevel =>
    "error parsing level filter: expected one of \"off\", \"error\", \"warn\", \"info\", "
      ++ "\"debug\", \"trace\", or a number 0-5"
  | .splitCharacter => "a part of a filter directive ends inside a character"

/-! ## Levels and fields -/

def levelNames : List String := ["off", "error", "warn", "info", "debug", "trace"]

/-- A level is a name in letters of any case, or a number from 0 to 5. -/
def isLevel (text : List Char) : Bool :=
  (Decimal.readNat64? text).any (· ≤ 5)
    || levelNames.contains (String.ofList (text.map Char.toLower))

/-- The value in a field: what stands between its first equals sign and the next. -/
def fieldValue? (field : List Char) : Option (List Char) :=
  match field.dropWhile (· != '=') with
  | _ :: rest => some (rest.takeWhile (· != '='))
  | [] => none

/-- Checks the value of a field, which is a number or a pattern. -/
def checkValue (value : List Char) : Except Text.Pattern.PatternFault Unit :=
  if (Decimal.readFloat? value).isSome then .ok () else Text.Pattern.checkPattern value

/-! ## Places in a directive

The state in which a directive is read, one character at a time. What may come next depends on the
place alone, and so does whether the directive may end. -/

/-- Where the reading of a directive stands between two characters; `first` is the byte at which
the current part begins. -/
inductive DirectivePlace where
  /-- Before the first character. -/
  | start
  /-- In a word, which is the name of a target or a level. -/
  | word
  /-- In the name of a span. -/
  | span (first : Nat)
  /-- In a field of a span. -/
  | field (first : Nat)
  /-- After the fields of a span. -/
  | fieldsEnd
  /-- After a span. -/
  | spanEnd
  /-- In the level after an equals sign. -/
  | level (first : Nat)
deriving DecidableEq, Repr

/-- Whether a character can begin a word: letters, numbers and three signs can. -/
def beginsWord (c : Char) : Bool := Text.isAlphanumeric c || c == '-' || c == ':' || c == '_'

/-- The part of a directive between two bytes. -/
def part (directive : List Char) (first last : Nat) : Except LogFilterFault (List Char) :=
  match Text.cutBytes? first last directive with
  | some text => .ok text
  | none => .error .splitCharacter

/-- Checks the field between two bytes. It must not be empty, but it may have any name and need not
have a value. -/
def checkField (directive : List Char) (first last : Nat) : Except LogFilterFault Unit := do
  let field ← part directive first last
  if field.isEmpty then .error .malformedDirective
  else
    match fieldValue? field with
    | some value => (checkValue value).mapError .field
    | none => .ok ()

/-- The place after a character that stands at byte `i`. -/
def DirectivePlace.next (directive : List Char) (i : Nat) (c : Char) :
    DirectivePlace → Except LogFilterFault DirectivePlace
  | .start =>
    if c = '[' then .ok (.span (i + 1))
    else if beginsWord c then .ok .word
    else .error .malformedDirective
  | .word =>
    if c = '[' then do
      let _ ← part directive 0 i
      return .span (i + 1)
    else if c = '=' then do
      let _ ← part directive 0 i
      return .level (i + 1)
    else .ok .word
  | .span first =>
    if c = ']' then do
      let _ ← part directive first i
      return .spanEnd
    else if c = '\x7b' then do
      let _ ← part directive first i
      return .field (i + 1)
    else .ok (.span first)
  | .field first =>
    if c = '\x7d' then do
      checkField directive first i
      return .fieldsEnd
    else .ok (.field first)
  | .fieldsEnd => if c = ']' then .ok .spanEnd else .error .malformedDirective
  | .spanEnd => if c = '=' then .ok (.level (i + 1)) else .error .malformedDirective
  | .level first => .ok (.level first)

/-- Whether a directive may end at a place. No level after an equals sign means the lowest one. -/
def DirectivePlace.atEnd (directive : List Char) : DirectivePlace → Except LogFilterFault Unit
  | .word => .ok ()
  | .spanEnd => .ok ()
  | .level first =>
    match Text.dropBytes? first directive with
    | some text => if text.isEmpty || isLevel text then .ok () else .error .unknownLevel
    | none => .error .splitCharacter
  | _ => .error .malformedDirective

/-! ## Directives and filters -/

/-- Reads the rest of a directive, which starts at byte `i`, up to its end. -/
def readDirective (directive : List Char) (i : Nat) (place : DirectivePlace) :
    List Char → Except LogFilterFault Unit
  | [] => place.atEnd directive
  | c :: rest => do readDirective directive (i + c.utf8Size) (← place.next directive i c) rest

def checkDirective (directive : List Char) : Except LogFilterFault Unit :=
  readDirective directive 0 .start (Text.trim directive)

/-- Checks a filter up to its first bad directive. -/
def checkLogFilter (filter : String) : Except LogFilterFault Unit :=
  ((filter.splitOn ",").filter (· != "")).forM fun directive => checkDirective directive.toList

end MarketReplay.CommandLine
