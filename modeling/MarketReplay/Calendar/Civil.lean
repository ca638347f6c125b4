/-!
# Civil dates

Dates of the Gregorian calendar, carried backwards past its introduction and before year 1, and the
count of days since 1970-01-01. The count is the plain sum: the days of the years before, of the
months before, and of the days before in the month. The way back guesses the year from its average
length of 146097 / 400 days, which is off by one at most.

In the program this calendar is an outside date library's. What stands here is written after the
calendar that the library documents, as sums and a search that proofs can open; that the two ways
are inverse to each other, and that the count of the next day is one more, is proved
(`MarketReplay.Proofs.Calendar.Civil`).
-/

set_option autoImplicit false

namespace MarketReplay.Calendar

/-- A year, a month from 1 and a day from 1. Nothing keeps a date from having a thirteenth month;
`Date.isValid` asks. -/
structure Date where
  year : Int
  month : Nat
  day : Nat
deriving DecidableEq, Repr

/-- Whether a year has a 29th of February. Years before the first are counted through zero, so that
the rule needs no exception for them. -/
def isLeap (year : Int) : Bool :=
  year % 4 == 0 && (year % 100 != 0 || year % 400 == 0)

/-- The lengths of the twelve months. -/
def monthLengths (leap : Bool) : List Nat :=
  [31, if leap then 29 else 28, 31, 30, 31, 30, 31, 31, 30, 31, 30, 31]

/-- A month from 1 to 12 and a day that the month has. The year is not looked at: dates exist in
every year, and which years are kept is a matter of the instants. -/
def Date.isValid (d : Date) : Bool :=
  match d.month with
  | 0 => false
  | m + 1 => match (monthLengths (isLeap d.year))[m]? with
    | some length => 1 ≤ d.day && d.day ≤ length
    | none => false

/-- The days from 0001-01-01 to the first day of a year, negative for years before. Divisions round
down, which is what the years before the first need. -/
def daysBeforeYear (year : Int) : Int :=
  let y := year - 1
  365 * y + y / 4 - y / 100 + y / 400

/-- The days of a year before the first day of a month. It is a sum over the lengths before it, so
that the table above is the only place where the months are spelled out. -/
def daysBeforeMonth (leap : Bool) (month : Nat) : Nat :=
  ((monthLengths leap).take (month - 1)).foldl (· + ·) 0

/-- The days from 0001-01-01 to 1970-01-01. Days are counted from the first of these when they are
worked out, and from the second when they are told. -/
def epochOffset : Int := 719162

/-- The days from 1970-01-01 to a date, negative for the days before. A date that does not exist has
a number as well; whoever reads a date asks first whether it does. -/
def Date.dayNumber (d : Date) : Int :=
  daysBeforeYear d.year + daysBeforeMonth (isLeap d.year) d.month + (d.day - 1) - epochOffset

/-- The month and day of a day of the year, counted from zero, when the months from `month` on
have the given lengths. -/
def monthAndDay : List Nat → Nat → Nat → Nat × Nat
  | [], month, n => (month, n + 1)
  | length :: rest, month, n =>
    if n < length then (month, n + 1) else monthAndDay rest (month + 1) (n - length)

/-- The year that holds a day counted from 0001-01-01. The guess from the average length of a year
is off by one at most, so one comparison with the start of either neighbour settles it. -/
def yearOfDay (n : Int) : Int :=
  let guess := 400 * n / 146097 + 1
  if n < daysBeforeYear guess then guess - 1
  else if daysBeforeYear (guess + 1) ≤ n then guess + 1
  else guess

/-- The date that lies a number of days after 1970-01-01. The year is found first, and the month
among the lengths of its months. -/
def Date.ofDayNumber (days : Int) : Date :=
  let n := days + epochOffset
  let year := yearOfDay n
  let (month, day) := monthAndDay (monthLengths (isLeap year)) 1 (n - daysBeforeYear year).toNat
  ⟨year, month, day⟩

/-- The years for which dates are kept. They are the date library's bounds: dates outside them are
refused when they are read and have no text when they are written. -/
def firstYear : Int := -262143
def lastYear : Int := 262142

end MarketReplay.Calendar
