/-!
# Scalars: the numbers a replay runs on

Prices, volumes and money are numbers of some type `α`, and everything that computes with them
asks only for `Scalar α`. The class holds operations and no laws: double precision floats have
no laws worth stating (`NaN` is not equal to itself, sums depend on their order), so a definition
over `Scalar` says exactly which operation is applied to what, and in which order. Two kinds of
number have instances:

* `Float`, on which the program runs (below);
* `Rat`, on which the accounting can be reasoned about without rounding
  (`MarketReplay.Scalar.Exact`).

Roots and powers stand apart (`RootPower`): the rationals have none, and the statistics that use
them ask for them by name.
-/

set_option autoImplicit false

namespace MarketReplay

/-- The operations of a number type. Comparisons may be partial: for a `NaN` both `x < y` and `y ≤
x` fail, and `x == x` fails too. That the comparisons can be decided is part of the class, so that
every definition over it runs. -/
class Scalar (α : Type) extends
    Add α, Sub α, Mul α, Div α, Neg α, LT α, LE α, BEq α, OfScientific α where
  decLt : DecidableLT α
  decLe : DecidableLE α
  /-- The number nearest to an integer. -/
  ofInt : Int → α
  /-- Neither infinite nor `NaN`. -/
  isFinite : α → Bool
  /-- The greatest integer not above the number, held within 64 bits where the type has
  infinities, and zero for a `NaN`. -/
  floorToInt : α → Int
  /-- The largest finite number of the 64-bit format. -/
  largest : α
  /-- The smallest positive number of full precision of the 64-bit format. -/
  smallestNormal : α

attribute [reducible, instance] Scalar.decLt Scalar.decLe

/-- Square roots and powers, of which nothing is assumed. A theorem that holds whatever they are
takes them as a parameter; one that needs more of them says what. -/
class RootPower (α : Type) where
  sqrt : α → α
  pow : α → α → α

namespace Scalar

variable {α : Type} [Scalar α]

/-- The number nearest to a natural number. -/
def ofNat (n : Nat) : α := ofInt n

/-- Numerals of an abstract scalar. The priority is low so that a concrete number type keeps the
numerals it has. -/
instance (priority := low) instNumeral (n : Nat) : OfNat α n := ⟨ofNat n⟩

/-- A number that differs from itself. The class has no `NaN` to compare with, and over exact
numbers none is ever found. -/
def isNaN (x : α) : Bool := !(x == x)

/-- The larger of two numbers; a `NaN` on one side is ignored, and the first of two equal numbers
is kept. -/
def max (x y : α) : α :=
  if isNaN x then y else if x < y then y else x

/-- The smaller of two numbers; a `NaN` on one side is ignored, and the first of two equal numbers
is kept. -/
def min (x y : α) : α :=
  if isNaN x then y else if y < x then y else x

/-- The size of a number. A `NaN` is not below zero and stays what it is, and so does a negative
zero. -/
def abs (x : α) : α := if x < 0 then -x else x

/-- The number itself within `[-largest, largest]`, the nearer bound outside, and zero for a `NaN`.
This is what is put around a quotient or a power before it is reported, so that no infinity is. -/
def bounded (x : α) : α :=
  if isNaN x then 0
  else if x < -largest then -largest
  else if largest < x then largest
  else x

/-- The sum from left to right, starting from the first term. Starting from zero would turn a sum of
negative zeros into zero. -/
def sum : List α → α
  | [] => 0
  | x :: xs => xs.foldl (· + ·) x

end Scalar

/-! ## Double precision

The numbers on which the program runs. The two bounds are written with the seventeen digits that
single out the double meant. -/

instance : Scalar Float where
  decLt := inferInstance
  decLe := inferInstance
  ofInt := Float.ofInt
  isFinite := Float.isFinite
  floorToInt x := x.floor.toInt64.toInt
  largest := 1.7976931348623157e308
  smallestNormal := 2.2250738585072014e-308

instance : RootPower Float where
  sqrt := Float.sqrt
  pow := Float.pow

end MarketReplay
