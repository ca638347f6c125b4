import Mathlib.Algebra.BigOperators.Group.List.Basic
import Mathlib.Algebra.Field.Rat
import Mathlib.Data.List.DropRight
import Mathlib.Tactic.Ring
import MarketReplay.Proofs.Indicator.RollingWindow
import MarketReplay.Scalar.Exact

/-!
# The window and the list behind it

After some values have entered, a window holds the last of them, as many as it has room for
(`RollingWindow.toList_fed`). Over the rationals the sum that it carries along is the sum of the
values that it holds (`RollingWindow.Trails`). The carried sum is where rounding numbers part from
this: a value that leaves is subtracted, which undoes its addition only if both are exact.

**`Trails.mean?_eq`**: the mean of a window is the mean of the last values of the list, once the
list is long enough to fill the window, and there is none before.
-/

set_option autoImplicit false

namespace MarketReplay

/-- The mean of the last values of a list, as many as the period says. For a shorter list this
divides by more than it adds up, so every use of it says that the list is long enough. -/
def lastMean (period : Nat) (values : List ℚ) : ℚ := (values.rtake period).sum / period

namespace RollingWindow

section last

variable {β : Type} {values : List β} {n : Nat}

theorem rtake_of_length_le (h : values.length ≤ n) : values.rtake n = values := by
  rw [List.rtake, Nat.sub_eq_zero_of_le h, List.drop_zero]

theorem length_rtake (values : List β) (n : Nat) :
    (values.rtake n).length = min values.length n := by
  rw [List.rtake, List.length_drop]
  omega

theorem rtake_min_length (values : List β) (n : Nat) :
    values.rtake (min values.length n) = values.rtake n := by
  have hplace : values.length - min values.length n = values.length - n := by omega
  rw [List.rtake, List.rtake, hplace]

theorem rtake_eq_tail (h : n < values.length) : values.rtake n = (values.rtake (n + 1)).tail := by
  have hplace : values.length - (n + 1) + 1 = values.length - n := by omega
  rw [List.rtake, List.rtake, List.tail_drop, hplace]

end last

/-! ## What a window holds

A list grows at its end while values enter, and a window holds the end of it. The number of values
follows from that. -/

section held

variable {α : Type} {w : RollingWindow α} {values : List α}

theorem size_of_toList (h : w.toList = values.rtake w.capacity) :
    w.size = min values.length w.capacity := by
  rw [← length_toList, h, length_rtake]

variable [Scalar α]

/-- **The window follows the list**: when a value enters, it holds the last values of the longer
list. The two cases are a window with room, where nothing leaves, and a full one, where the first of
the last values does. -/
theorem toList_push (h : w.toList = values.rtake w.capacity) (value : α) :
    (w.push value).1.toList = (values ++ [value]).rtake w.capacity := by
  have hsize := size_of_toList h
  -- the value that enters is the last one, and the others are one less than the window holds
  obtain ⟨n, hn⟩ : ∃ n, w.capacity = n + 1 := ⟨w.capacity - 1, by have := w.capacity_pos; omega⟩
  by_cases hroom : w.size < w.capacity
  · obtain ⟨hlist, -, -⟩ := push_of_room hroom value
    have hshort : values.length ≤ n := by omega
    rw [hlist, h, hn, List.rtake_concat_succ, rtake_of_length_le hshort,
      rtake_of_length_le (Nat.le_succ_of_le hshort)]
  · obtain ⟨oldest, rest, hheld, hlist, -, -⟩ := push_of_full hroom value
    have hlong : n < values.length := by omega
    have hrest : values.rtake n = rest := by
      rw [rtake_eq_tail hlong, ← hn, ← h, hheld, List.tail_cons]
    rw [hlist, hn, List.rtake_concat_succ, hrest]

theorem toList_fed (h : w.toList = values.rtake w.capacity) (more : List α) :
    (w.fed more).toList = (values ++ more).rtake w.capacity := by
  induction more generalizing w values with
  | nil => rwa [List.append_nil]
  | cons value rest ih =>
    have hpush := toList_push h value
    rw [← capacity_push w value] at hpush
    rw [List.append_cons, ← capacity_push w value]
    exact ih hpush

end held

/-! ## The carried sum

For exact numbers the sum needs no care. The structure keeps the values and the sum together, so
that one induction along the values serves both. -/

/-- The window holds the last of some values, with their sum. The list may be longer than the
window; what is in front of the window has left it without a trace. -/
structure Trails (w : RollingWindow ℚ) (values : List ℚ) : Prop where
  toList_eq : w.toList = values.rtake w.capacity
  sum_eq : w.sum = w.toList.sum

namespace Trails

variable {w : RollingWindow ℚ} {values : List ℚ}

theorem empty (capacity : Nat) : (RollingWindow.empty capacity : RollingWindow ℚ).Trails [] where
  toList_eq := by rw [toList_empty, List.rtake_nil]
  sum_eq := by rw [toList_empty]; rfl

theorem size_eq (h : w.Trails values) : w.size = min values.length w.capacity := by
  exact size_of_toList h.toList_eq

/-- The window still trails the list when a value enters. What the sum loses is the value that
leaves, exactly. -/
theorem push (h : w.Trails values) (value : ℚ) :
    (w.push value).1.Trails (values ++ [value]) := by
  constructor
  · rw [capacity_push]
    exact toList_push h.toList_eq value
  · by_cases hroom : w.size < w.capacity
    · obtain ⟨hlist, hsum, -⟩ := push_of_room hroom value
      rw [hsum, hlist, List.sum_append, List.sum_singleton, h.sum_eq]
    · obtain ⟨oldest, rest, hheld, hlist, hsum, -⟩ := push_of_full hroom value
      have hbefore : w.sum = oldest + rest.sum := by rw [h.sum_eq, hheld, List.sum_cons]
      rw [hsum, hlist, List.sum_append, List.sum_singleton, hbefore]
      show oldest + rest.sum - oldest + value = rest.sum + value
      ring

theorem fed (h : w.Trails values) (more : List ℚ) : (w.fed more).Trails (values ++ more) := by
  induction more generalizing w values with
  | nil => rwa [List.append_nil]
  | cons value rest ih =>
    rw [List.append_cons]
    exact ih (h.push value)

theorem mean?_eq (h : w.Trails values) :
    w.mean? =
      if values.length < w.capacity then none else some (lastMean w.capacity values) := by
  have hsize := h.size_eq
  unfold mean? isFull
  by_cases hshort : values.length < w.capacity
  · have hopen : (w.size == w.capacity) = false := by
      rw [beq_eq_false_iff_ne]
      omega
    rw [hopen, if_pos hshort]
    rfl
  · have hfull : (w.size == w.capacity) = true := by
      rw [beq_iff_eq]
      omega
    rw [hfull, if_neg hshort, if_pos rfl, h.sum_eq, h.toList_eq]
    rfl

end Trails

end RollingWindow

end MarketReplay
