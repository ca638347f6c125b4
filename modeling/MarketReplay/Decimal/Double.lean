import MarketReplay.Width

/-!
# Doubles as exact numbers

A finite 64-bit float is an integer times a power of two. Writing a float in decimal is then
arithmetic on natural numbers: nothing in this folder adds or multiplies floats.

Only the reading of literals (`MarketReplay.Decimal.Literal`) goes the other way, from digits to
floats, and is not here.
-/

set_option autoImplicit false

namespace MarketReplay.Decimal

/-- What a float stands for: `finite s m q` is `m · 2^q`, negated when `s` holds. The sign of
zero is kept. -/
inductive Magnitude where
  | notANumber
  | infinite (negative : Bool)
  | finite (negative : Bool) (mantissa : Nat) (exponent : Int)
deriving DecidableEq, Repr

/-- Takes a float apart by its sign bit, its 11 exponent bits and its 52 fraction bits. -/
def magnitude (x : Float) : Magnitude :=
  let bits := x.toBits.toNat
  let negative := bits / twoTo 63 == 1
  let biased : Nat := bits / twoTo 52 % twoTo 11
  let fraction := bits % twoTo 52
  if biased = 2047 then
    if fraction = 0 then .infinite negative else .notANumber
  else if biased = 0 then
    .finite negative fraction (-1074)
  else
    .finite negative (twoTo 52 + fraction) ((biased : Int) - 1075)

/-- How a number halfway between two neighbours is rounded. Which of the two it is depends on what
the digits are for: the shortest digits of messages and of documents differ in it. -/
inductive Tie where
  | up
  | even
deriving DecidableEq, Repr

/-- Whether a remainder `r` of a division by `d`, after the quotient `c`, rounds `c` upwards. -/
def Tie.roundsUp (tie : Tie) (c r d : Nat) : Bool :=
  if 2 * r < d then false
  else if d < 2 * r then true
  else match tie with
    | .up => true
    | .even => c % 2 == 1

/-- The quotient `n / d` rounded to the nearest integer. Numbers are natural here; signs are put in
front when the digits are there. -/
def roundDiv (tie : Tie) (n d : Nat) : Nat :=
  if tie.roundsUp (n / d) (n % d) d then n / d + 1 else n / d

/-- The number of decimal digits of a natural number; zero has one. -/
def digitCount (n : Nat) : Nat := (Nat.toDigits 10 n).length

end MarketReplay.Decimal
