import MarketReplay.Loading.BarDocument
import MarketReplay.Loading.BarTable
import MarketReplay.Text.Lower

/-!
# Bars from files

The extension of a file's name says what the file holds. Opening the file is the caller's business:
it hands over the content, or why there is none. A path that no file can have is refused here.

So this module is a function of a path and of what opening it comes to, and everything about files
that can be said without a disk is said of it. The disk itself is read in one place
(`MarketReplay.Main`).
-/

set_option autoImplicit false

namespace MarketReplay

/-- The last part of a path that names something, if it names a file. -/
def fileName? (path : String) : Option String :=
  match ((path.splitOn "/").filter fun part => part != "" && part != ".").getLast? with
  | some name => if name = ".." then none else some name
  | none => none

/-- What follows the last point of a name; a point at the very start does not count, as it marks a
hidden file and no extension. -/
def extensionOf (name : String) : String :=
  let reversed := name.toList.reverse
  let extension := reversed.takeWhile (· != '.')
  if extension.length + 1 < reversed.length then String.ofList extension.reverse else ""

/-- The extension of a path in lower case. -/
def fileExtension (path : String) : String :=
  Text.lower (((fileName? path).map extensionOf).getD "")

/-- Why no file can have a path, for a path with a character of number zero, which ends paths. -/
def pathCause? (path : String) : Option String :=
  if path.toList.contains (Char.ofNat 0) then some "file name contained an unexpected NUL byte"
  else none

/-- The content of a file once its path has been looked at, or why there is none. -/
def openedContent (path : String) (content : Except String (List UInt8)) :
    Except String (List UInt8) :=
  match pathCause? path with
  | some cause => .error cause
  | none => content

/-- The bars of a file. An unsupported extension is reported whatever the content is, also when
there is none. -/
def barsOfFile (path : String) (content : Except String (List UInt8)) :
    Except (Fault Float) (List (Bar Float)) :=
  let opened : Except (Fault Float) (List UInt8) :=
    (openedContent path content).mapError fun cause => .source (.unreadable path cause)
  let extension := fileExtension path
  if extension = "csv" then opened.bind barsOfTable
  else if extension = "json" then do
    match String.fromUTF8? ⟨(← opened).toArray⟩ with
    | some text => barsOfDocument (← documentOfText text.toList)
    | none => .error .document
  else .error (.source (.unsupportedFormat extension))

end MarketReplay
