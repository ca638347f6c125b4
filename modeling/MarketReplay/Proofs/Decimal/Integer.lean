import MarketReplay.Decimal.Literal

/-!
# Integers written and read back

The decimal text of an integer is a minus sign, if there is one, and digits. **Reading it gives the
integer back**, if the range that is read for holds it (`readInt?_repr`, `readNat64?_repr`).

The reader takes the sign off first and looks at the range last. So the text of a natural number and
that of a negative one are treated alike from the sign on (`readInt?_of_spanSign`), and an integer
out of range is refused only when all its digits have been read.
-/

set_option autoImplicit false

namespace MarketReplay.Decimal

/-- A character of the decimal text of an integer. -/
def isIntegral (c : Char) : Bool := c == '-' || c.isDigit

theorem digitsValue_repr (n : Nat) : digitsValue n.repr.toList = n := by
  rw [Nat.toList_repr]
  exact Nat.ofDigitChars_ten_toDigits

theorem isDigit_repr {n : Nat} {c : Char} (hc : c ∈ n.repr.toList) : c.isDigit = true := by
  rw [Nat.toList_repr] at hc
  exact Nat.isDigit_of_mem_toDigits (by decide) (by decide) hc

theorem repr_ne_nil (n : Nat) : n.repr.toList ≠ [] := by
  rw [Nat.toList_repr]
  exact Nat.toDigits_ne_nil

theorem spanSign_of_head {text : List Char} (h : ∀ c ∈ text.head?, c.isDigit = true) :
    spanSign text = (false, text) := by
  unfold spanSign
  split
  · exact absurd (h '-' rfl) (by decide)
  · exact absurd (h '+' rfl) (by decide)
  · rfl

theorem spanSign_repr (n : Nat) : spanSign n.repr.toList = (false, n.repr.toList) :=
  spanSign_of_head fun _ hc => isDigit_repr (List.mem_of_mem_head? hc)

theorem readInt?_of_spanSign {range : IntRange} {text : List Char} {negative : Bool} {n : Nat}
    (hsign : spanSign text = (negative, n.repr.toList))
    (hmem : (if negative then -(n : Int) else n) ∈ range)
    (hlow : negative = true → range.low < 0) :
    readInt? range text = some (if negative then -(n : Int) else n) := by
  have hempty : n.repr.toList.isEmpty = false := List.isEmpty_eq_false_iff.mpr (repr_ne_nil n)
  have hall : n.repr.toList.all Char.isDigit = true :=
    List.all_eq_true.mpr fun c hc => isDigit_repr hc
  have hallowed : (negative && decide (0 ≤ range.low)) = false := by
    cases negative with
    | false => rfl
    | true => exact decide_eq_false (Int.not_le.mpr (hlow rfl))
  unfold readInt?
  simp only [hsign, hempty, hall, hallowed, digitsValue_repr, if_pos hmem, Bool.not_true,
    Bool.or_self, Bool.false_eq_true, if_false]

theorem toList_toString_negSucc (n : Nat) :
    (toString (Int.negSucc n)).toList = '-' :: (n + 1).repr.toList :=
  String.toList_append

/-- **The text of an integer is read back**, if the range holds it. In a range without negative
numbers there is no sign to be refused. -/
theorem readInt?_repr {range : IntRange} {n : Int} (h : n ∈ range) :
    readInt? range (toString n).toList = some n := by
  cases n with
  | ofNat n => exact readInt?_of_spanSign (spanSign_repr n) h nofun
  | negSucc n =>
    have hlow : range.low < 0 := by
      have := (IntRange.mem_iff.mp h).1
      omega
    rw [toList_toString_negSucc]
    have hsign : spanSign ('-' :: (n + 1).repr.toList) = (true, (n + 1).repr.toList) := rfl
    exact readInt?_of_spanSign hsign h fun _ => hlow

theorem readNat64?_repr {n : Nat} (h : (n : Int) ∈ IntRange.unsigned 64) :
    readNat64? (toString n).toList = some n := by
  have hread : readInt? (.unsigned 64) (toString n).toList = some (n : Int) :=
    readInt?_of_spanSign (spanSign_repr n) h nofun
  rw [readNat64?, hread]
  rfl

theorem toList_toString_ne_nil (n : Int) : (toString n).toList ≠ [] := by
  cases n with
  | ofNat n => exact repr_ne_nil n
  | negSucc n =>
    rw [toList_toString_negSucc]
    exact List.cons_ne_nil _ _

theorem isIntegral_toString {n : Int} {c : Char} (hc : c ∈ (toString n).toList) :
    isIntegral c = true := by
  cases n with
  | ofNat n => exact Bool.or_eq_true_iff.mpr (.inr (isDigit_repr hc))
  | negSucc n =>
    rw [toList_toString_negSucc] at hc
    rcases List.mem_cons.mp hc with rfl | hc
    · rfl
    · exact Bool.or_eq_true_iff.mpr (.inr (isDigit_repr hc))

end MarketReplay.Decimal
