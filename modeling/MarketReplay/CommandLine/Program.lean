import MarketReplay.CommandLine.LogFilter
import MarketReplay.CommandLine.Options
import MarketReplay.Json.Printer
import MarketReplay.Loading.BarFile
import MarketReplay.Report.Document
import MarketReplay.Report.Summary
import MarketReplay.Strategy.Reversion
import MarketReplay.Synthetic

/-!
# The program

From options to output: bars are loaded or made up, cleaned, replayed by one rule or by a sweep, and
reported. Each stage can fail, and its failure says which stage it was and why. Nothing here reads
or writes; the content of files is handed in, and the output is a value.

The stages are the functions of the other modules, put in order. Where a stage lays out a table
whose size the options set, the room for it is asked for just before (`requireRoom`), because the
program breaks off there if there is none.
-/

set_option autoImplicit false

namespace MarketReplay.CommandLine

/-- What the program leaves behind: its exit code and the lines it printed. Printing itself is left
to the outermost layer, so that all of this can be spoken of. -/
structure Output where
  /-- The code the program exits with, or none if it was stopped before it came to exit. -/
  exitCode : Option Nat
  stdout : List String
  stderr : List String
deriving DecidableEq, Repr

/-! ## Failures

Failures are values until the end, where each becomes an output. A fault of the library is reported
with the causes below it, a break in the middle of a stage with its reason alone. -/

/-- What ended the program: a message of its own, a fault in a stage, a break in the middle of a
stage, for which there is no report, or the want of memory, which leaves no exit. -/
inductive Failure where
  | plain (message : String)
  | fault (stage : Option String) (cause : Fault Float)
  | broken (reason : String)
  | outOfMemory

/-- A fault in a named stage. -/
def atStage {β : Type} (stage : String) (r : Except (Fault Float) β) : Except Failure β :=
  r.mapError (.fault (some stage))

/-- A fault that speaks for itself. -/
def direct {β : Type} (r : Except (Fault Float) β) : Except Failure β :=
  r.mapError (.fault none)

/-- A text on lines of its own, each of them indented. -/
def indentedLines (text : String) : List String :=
  (text.splitOn "\n").map fun line => "    " ++ line

/-- The messages of a fault from the outside in: a fault of a document wraps the reader's own. -/
def messagesOf : Fault Float → List String
  | .document => [(Fault.document : Fault Float).message, "malformed document"]
  | fault => [fault.message]

/-- Causes below a heading; several are numbered. -/
def causeLines : List String → List String
  | [] => []
  | [cause] => ["", "Caused by:"] ++ indentedLines cause
  | causes =>
    ["", "Caused by:"]
      ++ causes.zipIdx.map fun c => Decimal.rightAligned 5 (toString c.2) ++ ": " ++ c.1

def errorLines (message : String) (causes : List String) : List String :=
  ("Error: " ++ message).splitOn "\n" ++ causeLines causes

def Failure.output : Failure → Output
  | .plain message => ⟨some 1, [], errorLines message []⟩
  | .fault (some stage) cause => ⟨some 1, [], errorLines stage (messagesOf cause)⟩
  | .fault none cause =>
    ⟨some 1, [], errorLines cause.message ((messagesOf cause).drop 1)⟩
  | .broken reason => ⟨some 101, [], [reason]⟩
  | .outOfMemory => ⟨none, [], ["out of memory"]⟩

/-- Goes on if there is room for the tables that come next. A table beyond the count breaks the
program off with an exit code, one beyond the memory without. -/
def requireRoom : Room → Except Failure Unit
  | .enough => .ok ()
  | .beyondMemory => .error .outOfMemory
  | .beyondCount => .error (.broken "a table is too large")

/-! ## Stages

Each stage ends the run with its first failure. The options are checked as late as the program does
it: a series is loaded and cleaned before a rule's settings are looked at. -/

/-- The filter in force has to be one, and the format of log lines a known one. The environment's
filter goes before that of the options. -/
def checkLogging (o : Options) (filterVariable : Option String) : Except Failure Unit :=
  match checkLogFilter (filterVariable.getD o.logLevel) with
  | .error .splitCharacter => .error (.broken LogFilterFault.splitCharacter.message)
  | .error fault => .error (.plain ("invalid log filter: " ++ fault.message))
  | .ok () =>
    let format := Text.lower (String.ofList (Text.trim o.logFormat.toList))
    if ["json", "text", "pretty"].contains format then .ok ()
    else .error (.plain
      ("unknown log format " ++ Text.quoted o.logFormat ++ " (expected text or json)"))

/-- The bars of the file, or a made-up series if no file is given. -/
def loadBars (o : Options) (read : String → Except String (List UInt8)) :
    Except Failure (List (Bar Float)) :=
  match o.dataFile with
  | some path => atStage ("failed to load bars from " ++ path) (barsOfFile path (read path))
  | none => do
    requireRoom (seriesRoom o.bars)
    match seededBars o.bars o.initialPrice o.seed o.timeframe.millis with
    | some bars => .ok bars
    | none => .error (.broken "no random series for these parameters")

def Options.costs (o : Options) : AccountSettings Float := ⟨o.capital, o.commission, o.slippage⟩

/-- A document on one line or on many. -/
def documentLines (o : Options) (j : Json Float) : List String :=
  (if o.pretty then j.pretty else j.compact).splitOn "\n"

/-- Replays by one rule and reports. -/
def runRule {σ : Type} (o : Options) (rule : PriceRule Float σ) (cleaning : CleaningReport)
    (bars : List (Bar Float)) : Except Failure (List String) := do
  direct o.costs.check
  let record ← atStage "backtest failed" (replay rule.source o.costs none bars rule.fresh).2
  let metrics := Metrics.ofRecord record
  return match o.output with
    | .json => documentLines o (Report.runDocument rule.name cleaning record metrics)
    | .text => Report.runLines rule.name cleaning record metrics

def runChosenRule (o : Options) (cleaning : CleaningReport) (bars : List (Bar Float)) :
    Except Failure (List String) :=
  match o.rule with
  | .averageCross => do
    let settings : CrossSettings Float := ⟨o.fast, o.slow, o.positionSize⟩
    let rule ← direct (AverageCross.ofSettings settings)
    requireRoom (AverageCross.room settings)
    runRule o rule cleaning bars
  | .reversion => do
    let rule ← direct
      (Reversion.ofSettings ⟨o.rsiPeriod, o.rsiOversold, o.rsiOverbought, o.positionSize⟩)
    runRule o rule cleaning bars

/-- The grid of a sweep: a list that is not given has the single period of the options. There is no
list for the position sizes. -/
def Options.grid (o : Options) : Grid Float where
  fastPeriods := if o.sweepFast.isEmpty then [o.fast] else o.sweepFast
  slowPeriods := if o.sweepSlow.isEmpty then [o.slow] else o.sweepSlow
  positionSizes := [o.positionSize]

def runSweep (o : Options) (cleaning : CleaningReport) (bars : List (Bar Float)) :
    Except Failure (List String) := do
  if o.costs.check.isOk then requireRoom o.grid.room
  let outcomes ← atStage "sweep failed" (sweep bars o.grid o.costs)
  let best := bestBy? (fun s => s.metrics.sharpeRatio) outcomes
  return match o.output with
    | .json => documentLines o (Report.sweepDocument cleaning best outcomes)
    | .text => Report.sweepLines best outcomes

/-- The lines of the report that the options ask for. -/
def reportLines (o : Options) (filterVariable : Option String)
    (read : String → Except String (List UInt8)) : Except Failure (List String) := do
  checkLogging o filterVariable
  let raw ← loadBars o read
  let (bars, cleaning) ← atStage "bar cleaning failed"
    (clean (CleaningSettings.ofTimeframe o.timeframe) raw)
  if o.sweepFast.isEmpty && o.sweepSlow.isEmpty then runChosenRule o cleaning bars
  else runSweep o cleaning bars

/-- What the program puts out for a request, given the filter in the environment and a way to read
files. -/
def Request.output (request : Request) (filterVariable : Option String)
    (read : String → Except String (List UInt8)) : Output :=
  match request with
  | .version => ⟨some 0, [versionLine], []⟩
  | .help => ⟨some 0, helpLines, []⟩
  | .rejected reason => ⟨some 2, [], ["error: " ++ reason]⟩
  | .run o =>
    match reportLines o filterVariable read with
    | .ok lines => ⟨some 0, lines, []⟩
    | .error failure => failure.output

end MarketReplay.CommandLine
