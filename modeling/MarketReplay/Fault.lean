import MarketReplay.Decimal.Text
import MarketReplay.Market.Timeframe
import MarketReplay.Text.Quoted

/-!
# What can go wrong

A `Fault` names the cause of a failure and carries what the cause is about, numbers as numbers. The
wording is kept apart, in one `message` function per kind of cause, so that reasoning about when a
fault arises never touches text.

Causes that are words to begin with keep their words (the cases named `words`). What an outside
reader of documents or tables has to say about its input is not kept: a document that is no JSON is
`document`, whatever is wrong with it.
-/

set_option autoImplicit false

namespace MarketReplay

/-! ## Causes -/

/-- Why a setting or the bars of a run are refused. The values that were refused are part of it,
since the message shows them. -/
inductive Reason (α : Type) where
  /-- A period below one. -/
  | belowOne
  /-- A fast period that is not below the slow one. -/
  | notBelowSlow (fast slow : Nat)
  /-- A position size outside `(0, 1]`. -/
  | sizeOutside (size : α)
  /-- Thresholds out of order or outside `(0, 100)`. -/
  | thresholds (oversold overbought : α)
  /-- Capital that is not positive and finite. -/
  | notPositive (capital : α)
  /-- A cost rate outside `[0, limit]`. -/
  | rateOutside (limit rate : α)
  /-- A bar that is not later than the bar before it. -/
  | outOfOrder (index : Nat) (timestamp before : Int)
  /-- Fewer bars than a rule needs to warm up. -/
  | tooShort (bars warmup : Nat) (rule : String)
  /-- A reason given in words. -/
  | words (text : String)
deriving DecidableEq, Repr

/-- What is wrong with a row of an exchange's candle list. The cases stand in the order of the
checks, and a row has the first that applies. -/
inductive RowProblem where
  | notAList
  | tooFewFields (count : Nat)
  | openTime
  | notANumber (field text : String)
  | wrongKind (field : String)
  | tradeCount
deriving DecidableEq, Repr

/-- Why bars could not be collected from an exchange's rows. -/
inductive CollectorProblem where
  | row (index : Nat) (problem : RowProblem)
  | words (text : String)
deriving DecidableEq, Repr

/-- Why a source of bars cannot be used. Problems with what stands in the source have types of their
own; these come up before anything in it was read as a bar. -/
inductive SourceProblem where
  | unknownTimeframe (name : String)
  | unreadable (path : String) (cause : String)
  | unsupportedFormat (extension : String)
  | notAListOfBars
  | words (text : String)
deriving DecidableEq, Repr

/-- What is wrong with a record of a table. Records are counted from one, and the heading is none of
them. -/
inductive TableProblem where
  | tooFewColumns (record count : Nat)
  | invalidNumber (record : Nat) (column text : String)
  | timestamp (text : String)
  /-- Bytes that are no text. -/
  | encoding (record : Nat)
  | words (text : String)
deriving DecidableEq, Repr

/-- Why something failed. The kinds are those that a caller can tell apart; what belongs to a kind
is in its fields. A number that is too small or out of place is carried as it is, so that a theorem
about a failure can speak of the number. -/
inductive Fault (α : Type) where
  | insufficientData (required actual : Nat)
  | strategySetting (parameter : String) (reason : Reason α)
  | accountSetting (parameter : String) (reason : Reason α)
  | insufficientCash (required available : α)
  | positionAlreadyOpen (since : Int)
  | collector (problem : CollectorProblem)
  | source (problem : SourceProblem)
  | io (cause : String)
  | table (problem : TableProblem)
  /-- A document that is no JSON, or not of the expected shape. -/
  | document
deriving DecidableEq, Repr

/-- Only a failed transport can succeed when it is tried again. Everything else would fail in the
same way on the same input. -/
def Fault.isTransient {α : Type} : Fault α → Bool
  | .collector _ => true
  | _ => false

/-! ## Wording

The texts in which faults are reported. They are a function of the fault and of nothing else, and
the numbers in them are written in full, never in exponent form. -/

section Wording

variable {α : Type} [DecimalText α]

def Reason.message : Reason α → String
  | .belowOne => "must be at least 1"
  | .notBelowSlow fast slow => s!"must be less than slow_period ({fast} >= {slow})"
  | .sizeOutside size => "must be within (0, 1], got " ++ DecimalText.message size
  | .thresholds oversold overbought =>
    "thresholds must satisfy 0 < oversold < overbought < 100, got "
      ++ DecimalText.message oversold ++ " / " ++ DecimalText.message overbought
  | .notPositive capital => "must be positive, got " ++ DecimalText.message capital
  | .rateOutside limit rate =>
    "must be within [0, " ++ DecimalText.message limit ++ "], got " ++ DecimalText.message rate
  | .outOfOrder index timestamp before =>
    s!"timestamps must be strictly increasing, bar {index} at {timestamp} follows {before}"
  | .tooShort bars warmup rule =>
    s!"{bars} bars is shorter than the {warmup} bar warm-up of {rule}"
  | .words text => text

def RowProblem.message : RowProblem → String
  | .notAList => "expected an array"
  | .tooFewFields count => s!"expected at least 9 fields, got {count}"
  | .openTime => "open time is not an integer"
  | .notANumber field text => field ++ " is not a number: " ++ Text.quoted text
  | .wrongKind field => field ++ " has unexpected type"
  | .tradeCount => "trade count is not an integer"

def CollectorProblem.message : CollectorProblem → String
  | .row index problem => s!"kline row {index}: " ++ problem.message
  | .words text => text

def SourceProblem.message : SourceProblem → String
  | .unknownTimeframe name => "Unknown timeframe: " ++ name
  | .unreadable path cause => path ++ ": " ++ cause
  | .unsupportedFormat extension => "Unsupported file format: " ++ extension
  | .notAListOfBars => "expected a JSON array of bars"
  | .words text => text

def TableProblem.message : TableProblem → String
  | .tooFewColumns record count => s!"record {record}: expected at least 6 columns, got {count}"
  | .invalidNumber record column text =>
    s!"record {record}: invalid {column} " ++ Text.quoted text
  | .timestamp text => "Unable to parse timestamp: " ++ text
  | .encoding record => s!"record {record}: invalid UTF-8"
  | .words text => text

def Fault.message : Fault α → String
  | .insufficientData required actual =>
    s!"Insufficient data: need at least {required} bars, got {actual}"
  | .strategySetting parameter reason =>
    "Invalid strategy config: " ++ parameter ++ " " ++ reason.message
  | .accountSetting parameter reason =>
    "Invalid backtest config: " ++ parameter ++ " " ++ reason.message
  | .insufficientCash required available =>
    "Insufficient cash: need $" ++ DecimalText.fixed 2 required
      ++ ", have $" ++ DecimalText.fixed 2 available
  | .positionAlreadyOpen since => s!"Position already open since {since}"
  | .collector problem => "Collector error: " ++ problem.message
  | .source problem => "Data loading error: " ++ problem.message
  | .io cause => "IO error: " ++ cause
  | .table problem => "CSV parse error: " ++ problem.message
  | .document => "JSON error: malformed document"

end Wording

/-- The timeframe that a text names; blanks around the name do not count. The fault carries the name
without the blanks. -/
def Timeframe.ofText {α : Type} (text : String) : Except (Fault α) Timeframe :=
  let name := String.ofList (Text.trim text.toList)
  match Timeframe.ofName? name with
  | some t => .ok t
  | none => .error (.source (.unknownTimeframe name))

end MarketReplay
