import MarketReplay.Decimal.Literal
import MarketReplay.Market.Timeframe
import MarketReplay.Text.Blank

/-!
# Options

The options of the command line and how they are written. A long option takes its value after an
equals sign or as the next argument, a short one also without anything between. An option may be
given once, the lists of a sweep excepted, which are continued. A next argument that starts with a
minus is never a value, unless it is the minus alone. There are no arguments besides options.

An outside library reads the command line in the program, and writes texts about it when it is not
understood. That a command line is refused is modelled, and with which exit code; the wording is
not.
-/

set_option autoImplicit false

namespace MarketReplay.CommandLine

inductive RuleChoice where
  | averageCross
  | reversion
deriving DecidableEq, Repr

inductive OutputFormat where
  | json
  | text
deriving DecidableEq, Repr

/-- What the command line can set. Every option has a usual value, so that an empty command line is
a run. -/
structure Options where
  dataFile : Option String
  bars : Nat
  seed : Nat
  initialPrice : Float
  timeframe : Timeframe
  rule : RuleChoice
  fast : Nat
  slow : Nat
  rsiPeriod : Nat
  rsiOversold : Float
  rsiOverbought : Float
  positionSize : Float
  capital : Float
  commission : Float
  slippage : Float
  sweepFast : List Nat
  sweepSlow : List Nat
  output : OutputFormat
  pretty : Bool
  logLevel : String
  logFormat : String

def Options.usual : Options where
  dataFile := none
  bars := 1000
  seed := 42
  initialPrice := 30000
  timeframe := .hour
  rule := .averageCross
  fast := 5
  slow := 20
  rsiPeriod := 14
  rsiOversold := 30
  rsiOverbought := 70
  positionSize := 0.5
  capital := 10000
  commission := 0.001
  slippage := 0.001
  sweepFast := []
  sweepSlow := []
  output := .json
  pretty := false
  logLevel := "info"
  logFormat := "text"

/-! ## Values

How the text of a value is read. A value that does not fit its option is a rejected command line and
not a fault of the run. -/

def natValue? (value : String) : Option Nat := Decimal.readNat64? value.toList

def floatValue? (value : String) : Option Float := Decimal.readFloat? value.toList

def natList? (value : String) : Option (List Nat) := (value.splitOn ",").mapM natValue?

def timeframeValue? (value : String) : Option Timeframe :=
  Timeframe.ofName? (String.ofList (Text.trim value.toList))

def ruleValue? : String → Option RuleChoice
  | "ma-cross" => some .averageCross
  | "rsi-reversion" => some .reversion
  | _ => none

def outputValue? : String → Option OutputFormat
  | "json" => some .json
  | "text" => some .text
  | _ => none

/-- The options with a value given to the option of a long name; none if there is no such option
or the value does not fit it. -/
def Options.set? (o : Options) (name value : String) : Option Options :=
  match name with
  | "data-file" => if value.isEmpty then none else some { o with dataFile := some value }
  | "bars" => (natValue? value).map fun v => { o with bars := v }
  | "seed" => (natValue? value).map fun v => { o with seed := v }
  | "initial-price" => (floatValue? value).map fun v => { o with initialPrice := v }
  | "timeframe" => (timeframeValue? value).map fun v => { o with timeframe := v }
  | "strategy" => (ruleValue? value).map fun v => { o with rule := v }
  | "fast" => (natValue? value).map fun v => { o with fast := v }
  | "slow" => (natValue? value).map fun v => { o with slow := v }
  | "rsi-period" => (natValue? value).map fun v => { o with rsiPeriod := v }
  | "rsi-oversold" => (floatValue? value).map fun v => { o with rsiOversold := v }
  | "rsi-overbought" => (floatValue? value).map fun v => { o with rsiOverbought := v }
  | "position-size" => (floatValue? value).map fun v => { o with positionSize := v }
  | "capital" => (floatValue? value).map fun v => { o with capital := v }
  | "commission" => (floatValue? value).map fun v => { o with commission := v }
  | "slippage" => (floatValue? value).map fun v => { o with slippage := v }
  | "sweep-fast" => (natList? value).map fun v => { o with sweepFast := o.sweepFast ++ v }
  | "sweep-slow" => (natList? value).map fun v => { o with sweepSlow := o.sweepSlow ++ v }
  | "output" => (outputValue? value).map fun v => { o with output := v }
  | "log-level" => some { o with logLevel := value }
  | "log-format" => some { o with logFormat := value }
  | _ => none

/-! ## Arguments

An argument is looked at by its form first, and what it means depends on the options it names. The
argument behind it is in sight, because it may be its value. -/

/-- What the arguments ask for. -/
inductive Request where
  | run (options : Options)
  | version
  | help
  /-- The arguments are not understood. -/
  | rejected (reason : String)

/-- The long name of a short option that takes a value. -/
def longName? : Char → Option String
  | 'f' => some "data-file"
  | 'b' => some "bars"
  | 't' => some "timeframe"
  | 'c' => some "capital"
  | 'o' => some "output"
  | _ => none

/-- The options that take a value. -/
def valueOptions : List String := [
  "data-file", "bars", "seed", "initial-price", "timeframe", "strategy", "fast", "slow",
  "rsi-period", "rsi-oversold", "rsi-overbought", "position-size", "capital", "commission",
  "slippage", "sweep-fast", "sweep-slow", "output", "log-level", "log-format"]

def isRepeatable (name : String) : Bool := name == "sweep-fast" || name == "sweep-slow"

/-- One argument, by its form. -/
inductive Argument where
  /-- A long name, and the value after an equals sign. -/
  | long (name : String) (value : Option String)
  /-- A letter, and the characters after it. -/
  | short (letter : Char) (rest : List Char)
  /-- The two minus signs that end the options. -/
  | endOfOptions
  | plain
deriving DecidableEq, Repr

def Argument.ofString (argument : String) : Argument :=
  match argument.toList with
  | ['-', '-'] => .endOfOptions
  | '-' :: '-' :: body =>
    let name := body.takeWhile (· != '=')
    .long (String.ofList name)
      (if name.length < body.length then some (String.ofList (body.drop (name.length + 1)))
        else none)
  | '-' :: letter :: rest => .short letter rest
  | _ => .plain

/-- Whether an argument can be the value of the option before it. What looks like an option is never
taken for a value, which is why a negative number has to be written into the option. -/
def isValue (argument : String) : Bool := Argument.ofString argument == .plain

/-- The value written into a short option. -/
def attachedValue? : List Char → Option String
  | [] => none
  | '=' :: value => some (String.ofList value)
  | value => some (String.ofList value)

/-- What is known while reading: the options so far and the names given. The names are kept because
most options may be given once only. -/
structure Reading where
  options : Options
  given : List String

/-- Gives a value to an option, unless it was given before and may not be. -/
def Reading.give (r : Reading) (name value : String) : Except String Reading :=
  if r.given.contains name && !isRepeatable name then .error ("repeated option --" ++ name)
  else match r.options.set? name value with
    | some options => .ok ⟨options, name :: r.given⟩
    | none => .error ("invalid value for --" ++ name)

/-- What one argument, with the next one in sight, comes to. -/
inductive Step where
  | ends (request : Request)
  /-- Goes on after this argument. -/
  | one (r : Reading)
  /-- Goes on after the next argument, which was a value. -/
  | two (r : Reading)

/-- An option of the given name with the value written into it, or else the next argument. -/
def Reading.valued (r : Reading) (name : String) (written next : Option String) : Step :=
  match written, next with
  | some value, _ =>
    match r.give name value with
    | .ok r => .one r
    | .error reason => .ends (.rejected reason)
  | none, some value =>
    if isValue value then
      match r.give name value with
      | .ok r => .two r
      | .error reason => .ends (.rejected reason)
    else .ends (.rejected ("missing value for --" ++ name))
  | none, none => .ends (.rejected ("missing value for --" ++ name))

/-- Makes documents pretty, once. -/
def Reading.prettied (r : Reading) : Step :=
  if r.given.contains "pretty" then .ends (.rejected "repeated option --pretty")
  else .one ⟨{ r.options with pretty := true }, "pretty" :: r.given⟩

/-- What one argument comes to, with the next one in sight. Help and version end the reading at
once, whatever is wrong behind them. -/
def Reading.step (r : Reading) (argument : String) (next : Option String) : Step :=
  match Argument.ofString argument with
  | .long "help" none => .ends .help
  | .long "version" none => .ends .version
  | .long "pretty" none => r.prettied
  | .long name value =>
    if valueOptions.contains name then r.valued name value next
    else .ends (.rejected ("unexpected argument --" ++ name))
  | .short 'h' _ => .ends .help
  | .short 'V' _ => .ends .version
  | .short letter attached =>
    match longName? letter with
    | some name => r.valued name (attachedValue? attached) next
    | none => .ends (.rejected ("unexpected argument -" ++ String.singleton letter))
  | .endOfOptions =>
    .ends (if next.isNone then .run r.options else .rejected "unexpected argument")
  | .plain => .ends (.rejected "unexpected argument")

/-- Reads the arguments from left to right; the first that asks for help or the version, or is not
understood, decides. -/
def readArguments (r : Reading) : List String → Request
  | [] => .run r.options
  | [argument] =>
    match r.step argument none with
    | .ends request => request
    | .one r => .run r.options
    | .two r => .run r.options
  | argument :: next :: rest =>
    match r.step argument (some next) with
    | .ends request => request
    | .one r => readArguments r (next :: rest)
    | .two r => readArguments r rest

def Request.ofArguments (arguments : List String) : Request :=
  readArguments ⟨Options.usual, []⟩ arguments

/-! ## Help

Only that these are printed, and with exit code zero, follows the program; the lines themselves are
not those of its library. -/

def versionLine : String := "crypto-backtest 0.1.0"

def helpLines : List String :=
  ["Bar-by-bar crypto strategy backtester", "", "Usage: crypto-backtest [OPTIONS]", "", "Options:"]
    ++ (valueOptions.map fun name => "      --" ++ name ++ " <" ++ name.map Char.toUpper ++ ">")
    ++ ["      --pretty", "  -h, --help", "  -V, --version"]

end MarketReplay.CommandLine
