import MarketReplay.Text.Blank

/-!
# Timeframes

The spacing of the bars of a series, out of a fixed choice. A timeframe has two faces: the name
under which settings, files and the command line know it, and its length in milliseconds, with which
the gaps of a series are found and synthetic bars are spaced. The names are short codes of
exchanges, and they are matched exactly, letter by letter.
-/

set_option autoImplicit false

namespace MarketReplay

/-- The timeframes that exchanges offer. There is no month among them, which has no fixed length. -/
inductive Timeframe where
  | second
  | minute
  | fiveMinutes
  | quarterHour
  | halfHour
  | hour
  | fourHours
  | day
  | week
deriving DecidableEq, Repr

namespace Timeframe

/-- All timeframes, from the shortest to the longest. -/
def all : List Timeframe :=
  [second, minute, fiveMinutes, quarterHour, halfHour, hour, fourHours, day, week]

/-- The length in milliseconds. Days and weeks have their usual length; there are no clock changes
in the time that bars are stamped with. -/
def millis : Timeframe → Int
  | second => 1000
  | minute => 60 * 1000
  | fiveMinutes => 5 * 60 * 1000
  | quarterHour => 15 * 60 * 1000
  | halfHour => 30 * 60 * 1000
  | hour => 60 * 60 * 1000
  | fourHours => 4 * 60 * 60 * 1000
  | day => 24 * 60 * 60 * 1000
  | week => 7 * 24 * 60 * 60 * 1000

def name : Timeframe → String
  | second => "1s"
  | minute => "1m"
  | fiveMinutes => "5m"
  | quarterHour => "15m"
  | halfHour => "30m"
  | hour => "1h"
  | fourHours => "4h"
  | day => "1d"
  | week => "1w"

/-- The timeframe of a name. It is looked up among all of them, so that it is the inverse of `name`
by construction and a timeframe added to the list is read at once. -/
def ofName? (name : String) : Option Timeframe := all.find? fun t => t.name == name

end Timeframe

end MarketReplay
