import MarketReplay.CommandLine.Program

/-!
# The command line

Reads the arguments, the environment and the data file, and prints what the program puts out. This
is the only module that acts; everything it does besides is ask `Request.output` for an answer.
-/

set_option autoImplicit false

namespace MarketReplay.CommandLine

/-- The variable whose log filter goes before the option. -/
def logVariable : String := "CRYPTO_BACKTEST_LOG"

/-- Why a file cannot be opened, in the words of the system. -/
def openingCause : IO.Error → String
  | .noFileOrDirectory .. => "No such file or directory (os error 2)"
  | .permissionDenied .. => "Permission denied (os error 13)"
  | e => toString e

def readContent (path : String) : IO (Except String (List UInt8)) := do
  try
    let bytes ← IO.FS.readBinFile path
    return .ok bytes.toList
  catch e => return .error (openingCause e)

/-- The content of the file that a request names. -/
def requestedContent : Request → IO (Except String (List UInt8))
  | .run { dataFile := some path, .. } => readContent path
  | _ => return .error ""

/-- The code of a program that was stopped: 128 and the number of the signal that stops it. -/
def stoppedCode : Nat := 128 + 6

/-- Answers a request and returns the exit code. -/
def Request.perform (request : Request) : IO UInt32 := do
  let content ← requestedContent request
  let output := request.output (← IO.getEnv logVariable) fun _ => content
  for line in output.stdout do IO.println line
  for line in output.stderr do IO.eprintln line
  return UInt32.ofNat (output.exitCode.getD stoppedCode)

end MarketReplay.CommandLine

def main (arguments : List String) : IO UInt32 :=
  (MarketReplay.CommandLine.Request.ofArguments arguments).perform
