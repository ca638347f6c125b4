import MarketReplay.Decimal.Double

/-!
# The fewest digits that read back

A double stands for every real number that rounds to it: an interval that reaches halfway to its two
neighbours and contains its ends when the mantissa is even. Among the decimal numbers in the
interval those with the fewest digits are short names of the double, and the nearest of them to the
double's own value is the one to write.

For `n` digits the candidates lie on a grid of powers of ten, and only the two grid points around
the value matter: if any point of the grid is in the interval, one of these two is.

So the search goes from one digit up to seventeen and stops at the first grid that has a point. No
floats are added or multiplied: the interval and the grid are fractions over one denominator.
-/

set_option autoImplicit false

namespace MarketReplay.Decimal

/-- The decimal number `coefficient · 10^exponent`. -/
structure Digits where
  coefficient : Nat
  exponent : Int
deriving DecidableEq, Repr

/-- The same number without zeros at the end of its coefficient. Digits are then as few as the
number has, which the layouts rely on. -/
def Digits.stripped (coefficient : Nat) (exponent : Int) : Digits :=
  if 0 < coefficient ∧ coefficient % 10 = 0 then
    Digits.stripped (coefficient / 10) (exponent + 1)
  else ⟨coefficient, exponent⟩
termination_by coefficient
decreasing_by omega

/-- A value with the ends of the interval of reals that round to it, as fractions over one
denominator. -/
structure Interval where
  low : Nat
  value : Nat
  high : Nat
  denominator : Nat
  closed : Bool

/-- The interval of the double `m · 2^q`. Below a power of two the neighbours are half as far
apart, except at the bottom of the range. -/
def Interval.ofDouble (m : Nat) (q : Int) : Interval :=
  let below := if m = twoTo 52 ∧ -1074 < q then 1 else 2
  let scale := twoTo (q - 2).toNat
  { low := (4 * m - below) * scale
    value := 4 * m * scale
    high := (4 * m + 2) * scale
    denominator := twoTo (2 - q).toNat
    closed := m % 2 == 0 }

/-- The exponent of the leading decimal digit of `value / denominator`. -/
def Interval.leading (i : Interval) : Int :=
  if i.denominator ≤ i.value then digitCount (i.value / i.denominator) - 1
  else
    let j := digitCount (i.denominator / i.value) - 1
    if i.denominator ≤ i.value * tenTo j then -(j : Int) else -(j + 1 : Int)

/-- The point of the grid `10^g` to write for the value: the nearer of the two around it, among
those in the interval. -/
def Interval.onGrid (tie : Tie) (i : Interval) (g : Int) : Option Nat :=
  let up := tenTo (-g).toNat
  let d := i.denominator * tenTo g.toNat
  let v := i.value * up
  let c := v / d
  let lower := i.low * up < c * d || (i.closed && i.low * up == c * d)
  let upper := (c + 1) * d < i.high * up || (i.closed && (c + 1) * d == i.high * up)
  match lower, upper with
  | true, true => some (if tie.roundsUp c (v % d) d then c + 1 else c)
  | true, false => some c
  | false, true => some (c + 1)
  | false, false => none

/-- The shortest decimal name of the positive double `m · 2^q`. Seventeen digits always
suffice. -/
def shortest (tie : Tie) (m : Nat) (q : Int) : Digits :=
  let i := Interval.ofDouble m q
  let k := i.leading
  let found := (List.range 17).findSome? fun (n : Nat) =>
    (i.onGrid tie (k - n)).map fun c => Digits.stripped c (k - n)
  found.getD ⟨0, 0⟩

end MarketReplay.Decimal
