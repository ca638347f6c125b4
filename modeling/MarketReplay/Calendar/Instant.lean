import MarketReplay.Calendar.Civil

/-!
# Instants

An instant is a count of milliseconds since 1970-01-01T00:00:00 UTC. Its parts are taken by division
towards the past, so that an instant before the epoch has the date and the time of day that a clock
would have shown.

There are no leap seconds in the count. A sixtieth second can be spelled, and is the instant of the
second after it.
-/

set_option autoImplicit false

namespace MarketReplay.Calendar

def dayMillis : Int := 86400000

/-- The milliseconds from the epoch to a time of a day; seconds may go up to 60, and the sixtieth is
the one after the fifty-ninth. -/
def instantOf (days : Int) (hour minute second millis : Nat) : Int :=
  1000 * (86400 * days + 3600 * hour + 60 * minute + second) + millis

structure TimeOfDay where
  hour : Nat
  minute : Nat
  second : Nat
  millis : Nat
deriving DecidableEq, Repr

/-- The time of day of an instant. The remainder is never negative, whichever side of the epoch the
instant is on. -/
def timeOfDay (instant : Int) : TimeOfDay :=
  let t := (instant % dayMillis).toNat
  ⟨t / 3600000, t / 60000 % 60, t / 1000 % 60, t % 1000⟩

/-- The date of an instant, if its year is kept. The division rounds down, so that an instant before
1970 belongs to the day it falls on and not to the one after. -/
def dateOf? (instant : Int) : Option Date :=
  let d := Date.ofDayNumber (instant / dayMillis)
  if firstYear ≤ d.year ∧ d.year ≤ lastYear then some d else none

/-! ## Writing -/

/-- A natural number with zeros before it up to a width. -/
def padded (width n : Nat) : String :=
  let text := Nat.repr n
  String.ofList (List.replicate (width - text.length) '0') ++ text

/-- A year in four digits; one outside 0 to 9999 has a sign, without which its digits could be those
of a shorter year and something else. -/
def yearText (year : Int) : String :=
  if 0 ≤ year ∧ year ≤ 9999 then padded 4 year.toNat
  else (if year < 0 then "-" else "+") ++ padded 4 year.natAbs

def dateText (d : Date) : String :=
  yearText d.year ++ "-" ++ padded 2 d.month ++ "-" ++ padded 2 d.day

/-- Date and time in UTC with a `T` between and the offset `+00:00`; milliseconds are written only
if there are any. An instant whose year is not kept has no text. -/
def instantText? (instant : Int) : Option String :=
  (dateOf? instant).map fun d =>
    let t := timeOfDay instant
    dateText d ++ "T" ++ padded 2 t.hour ++ ":" ++ padded 2 t.minute ++ ":" ++ padded 2 t.second
      ++ (if t.millis = 0 then "" else "." ++ padded 3 t.millis) ++ "+00:00"

/-- Date, hour and minute for a report; an instant of no kept year is written as its number, since a
report has to say something. -/
def minuteText (instant : Int) : String :=
  match dateOf? instant with
  | some d =>
    let t := timeOfDay instant
    dateText d ++ " " ++ padded 2 t.hour ++ ":" ++ padded 2 t.minute
  | none => toString instant

end MarketReplay.Calendar
