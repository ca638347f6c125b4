/-!
# Powers and widths

Powers of two and of ten, and the ranges of integers of a fixed width. Numbers in records and fields
are unbounded integers here; a range says which of them a field may hold, and is asked where a
number is read from a text. What is computed from such numbers afterwards is computed without
bounds. Where a machine would leave its word in doing so, `inWord` is what its word keeps, and the
modules on machine words say of their definitions when that is the same.
-/

set_option autoImplicit false

namespace MarketReplay

/-- Powers of two, by `Nat.pow` itself. The sign `^` goes through an instance that Mathlib replaces,
and a definition would mean different terms with and without it. -/
def twoTo (n : Nat) : Nat := Nat.pow 2 n

/-- Powers of ten, spelled like those of two and for the same reason. -/
def tenTo (n : Nat) : Nat := Nat.pow 10 n

/-- The integers from `low` to `high`, both included. Membership can be decided, so that a reader
can test it, and it opens to the two bounds for `omega` (`IntRange.mem_iff`). -/
structure IntRange where
  low : Int
  high : Int
deriving DecidableEq, Repr

namespace IntRange

instance : Membership Int IntRange := ⟨fun r n => r.low ≤ n ∧ n ≤ r.high⟩

instance (r : IntRange) (n : Int) : Decidable (n ∈ r) :=
  inferInstanceAs (Decidable (r.low ≤ n ∧ n ≤ r.high))

theorem mem_iff {r : IntRange} {n : Int} : n ∈ r ↔ r.low ≤ n ∧ n ≤ r.high := Iff.rfl

/-- Integers of `bits` bits with a sign, in two's complement: there is one more below zero than
above. -/
def signed (bits : Nat) : IntRange := ⟨-(twoTo (bits - 1) : Int), (twoTo (bits - 1) : Int) - 1⟩

/-- Integers of `bits` bits without a sign. -/
def unsigned (bits : Nat) : IntRange := ⟨0, (twoTo bits : Int) - 1⟩

end IntRange

/-- What a machine word of 64 bits keeps of a whole number, read with a sign. Sums, differences and
products of words are this of the sums, differences and products of numbers, so a result that leaves
the range comes in again at the other end. -/
def inWord (n : Int) : Int := n.bmod (twoTo 64)

theorem inWord_of_mem {n : Int} (h : n ∈ IntRange.signed 64) : inWord n = n := by
  have hlow : -(twoTo 63 : Int) ≤ n := h.1
  have hhigh : n ≤ (twoTo 63 : Int) - 1 := h.2
  have htwo : twoTo 63 = 9223372036854775808 := by decide
  have hwidth : twoTo 64 = 18446744073709551616 := by decide
  rw [inWord, hwidth]
  exact Int.bmod_eq_of_le (by omega) (by omega)

end MarketReplay
