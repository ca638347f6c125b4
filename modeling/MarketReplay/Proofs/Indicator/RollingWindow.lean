import MarketReplay.Indicator.RollingWindow

/-!
# The ring as a queue

A window is a queue of bounded length, whatever stands in the slots it does not use. `push_of_room`
and `push_of_full` say what a value that enters does to the values held and to the carried sum; they
are the only place where slots are looked at.

**Windows that hold the same do the same** (`RollingWindow.Same.push`). A cleared window and one
that was never used are different rings: the old values are still in the slots of the one. They hold
the same, and so nothing that is asked of them afterwards tells them apart.

Nothing here adds or subtracts. The facts hold for doubles as they stand, sums with a `NaN`
included, and the modules on exact numbers and on doubles both start from them.
-/

set_option autoImplicit false

namespace MarketReplay

namespace RollingWindow

variable {α : Type}

/-! ## Slots

Where the values stand in the slots, for a window with room and for a full one. The two cases of
`toList` are the two states of the ring, before and after it has come round for the first time. -/

/-- Writing replaces the value at a place, or adds one. Both are the same equation on lists, since
behind the last slot there is nothing to drop. -/
theorem toList_written {slots : Array α} {place : Nat} (h : place ≤ slots.size) (value : α) :
    (written slots place value).toList =
      slots.toList.take place ++ value :: slots.toList.drop (place + 1) := by
  unfold written
  split
  · rename_i hlt
    rw [Array.toList_set, List.set_eq_take_append_cons_drop,
      if_pos (Array.length_toList ▸ hlt)]
  · rename_i hge
    have hplace : slots.toList.length ≤ place := by
      rw [Array.length_toList]
      omega
    rw [Array.toList_push, List.take_of_length_le hplace, List.drop_of_length_le (by omega)]

theorem toList_of_room {w : RollingWindow α} (h : w.size < w.capacity) :
    w.toList = w.slots.toList.take w.size := if_pos h

theorem toList_of_full {w : RollingWindow α} (h : ¬w.size < w.capacity) :
    w.toList = w.slots.toList.drop w.head ++ w.slots.toList.take w.head := if_neg h

theorem length_toList (w : RollingWindow α) : w.toList.length = w.size := by
  have hslots := w.size_le
  by_cases h : w.size < w.capacity
  · rw [toList_of_room h, List.length_take, Array.length_toList]
    omega
  · have hfull := slots_size_of_full h
    have hle := w.size_le_capacity
    have hhead := w.head_lt
    rw [toList_of_full h, List.length_append, List.length_drop, List.length_take,
      Array.length_toList]
    omega

/-- Two windows hold the same values, under the same carried sum. The sum is a field of its own,
because it does not follow from the values. -/
structure Same (v w : RollingWindow α) : Prop where
  capacity_eq : v.capacity = w.capacity
  sum_eq : v.sum = w.sum
  toList_eq : v.toList = w.toList

theorem Same.size_eq {v w : RollingWindow α} (h : v.Same w) : v.size = w.size := by
  rw [← length_toList v, h.toList_eq, length_toList]

variable [Scalar α]

/-! ## Values that enter

The two ways in which a value enters. From here on a window is its capacity, its list of values and
its sum. -/

@[simp] theorem toList_empty (capacity : Nat) :
    (RollingWindow.empty capacity : RollingWindow α).toList = [] :=
  List.length_eq_zero_iff.mp (length_toList _)

@[simp] theorem toList_clear (w : RollingWindow α) : w.clear.toList = [] :=
  List.length_eq_zero_iff.mp (length_toList _)

@[simp] theorem capacity_push (w : RollingWindow α) (value : α) :
    (w.push value).1.capacity = w.capacity := by
  unfold push
  split <;> rfl

theorem push_of_room {w : RollingWindow α} (h : w.size < w.capacity) (value : α) :
    (w.push value).1.toList = w.toList ++ [value] ∧ (w.push value).1.sum = w.sum + value ∧
      (w.push value).2 = none := by
  have hhead := w.head_eq h
  have hlist := toList_written w.head_le_slots value
  have hlength : (w.slots.toList.take w.size).length = w.size := by
    rw [List.length_take, Array.length_toList]
    exact Nat.min_eq_left w.size_le
  refine ⟨?_, ?_, ?_⟩
  · rw [toList_of_room h]
    rw [hhead] at hlist
    unfold push toList
    simp only [h, ↓reduceDIte, hhead, hlist]
    split
    · -- still not full: the values stand in the first slots
      rw [List.take_append, hlength, List.take_of_length_le (by omega), Nat.add_sub_cancel_left]
      rfl
    · -- the value takes the last slot, and the head comes back to the first
      rename_i hfull
      have hcapacity : w.size + 1 = w.capacity := by omega
      have hslots := w.slots_le
      rw [hcapacity, Nat.mod_self, List.drop_zero, List.take_zero, List.append_nil,
        List.drop_of_length_le (by rw [Array.length_toList]; exact hslots)]
  · unfold push
    simp only [h, ↓reduceDIte]
  · unfold push
    simp only [h, ↓reduceDIte]

/-- A full window gives up the value at its front for the one that enters. The sum loses the one
before it gains the other. -/
theorem push_of_full {w : RollingWindow α} (h : ¬w.size < w.capacity) (value : α) :
    ∃ oldest rest, w.toList = oldest :: rest ∧
      (w.push value).1.toList = rest ++ [value] ∧
      (w.push value).1.sum = w.sum - oldest + value ∧ (w.push value).2 = some oldest := by
  have hslots := slots_size_of_full h
  have hhead := w.head_lt
  have hlist := toList_written w.head_le_slots value
  have hlt : w.head < w.slots.toList.length := by
    rw [Array.length_toList, hslots]
    exact hhead
  have hlength : (w.slots.toList.take w.head).length = w.head := by
    rw [List.length_take]
    exact Nat.min_eq_left (Nat.le_of_lt hlt)
  refine ⟨w.slots.toList[w.head], w.slots.toList.drop (w.head + 1) ++ w.slots.toList.take w.head,
    ?_, ?_, ?_, ?_⟩
  · rw [toList_of_full h, List.drop_eq_getElem_cons hlt, List.cons_append]
  · unfold push toList
    simp only [h, ↓reduceDIte, ↓reduceIte, hlist]
    -- whether the head comes back to the first slot decides where the list is cut
    by_cases hwrap : w.head + 1 < w.capacity
    · rw [Nat.mod_eq_of_lt hwrap, List.drop_append, List.take_append, hlength,
        Nat.add_sub_cancel_left, List.drop_of_length_le (by omega),
        List.take_of_length_le (by omega)]
      simp
    · have hcapacity : w.head + 1 = w.capacity := by omega
      rw [hcapacity, Nat.mod_self, List.drop_zero, List.take_zero, List.append_nil,
        List.drop_of_length_le (Nat.le_of_eq (by rw [Array.length_toList, hslots])),
        List.nil_append]
  · unfold push
    simp only [h, ↓reduceDIte, Array.getElem_toList]
  · unfold push
    simp only [h, ↓reduceDIte, Array.getElem_toList]

/-- The window after some values have entered it, one after the other. What they push out is not
collected. -/
def fed (w : RollingWindow α) (values : List α) : RollingWindow α :=
  values.foldl (fun w value => (w.push value).1) w

@[simp] theorem capacity_fed (w : RollingWindow α) (values : List α) :
    (w.fed values).capacity = w.capacity := by
  induction values generalizing w with
  | nil => rfl
  | cons value rest ih => exact (ih _).trans (capacity_push w value)

/-! ## Windows that hold the same

That two windows hold the same is kept by every value that enters, and gives the same answers. A
reset that leaves old values in the slots is harmless for this reason. -/

namespace Same

variable {v w : RollingWindow α}

theorem clear {capacity : Nat} (h : w.capacity = Nat.max capacity 1) :
    w.clear.Same (RollingWindow.empty capacity) where
  capacity_eq := h
  sum_eq := rfl
  toList_eq := by rw [toList_clear, toList_empty]

/-- **Windows that hold the same still do when the same value has entered.** They are full together,
and what leaves them is the same, since their first values are. -/
theorem push (h : v.Same w) (value : α) :
    (v.push value).1.Same (w.push value).1 ∧ (v.push value).2 = (w.push value).2 := by
  have hsize := h.size_eq
  have hcapacity := h.capacity_eq
  -- both windows have room, or neither has, and then both let go of the same value
  by_cases hroom : w.size < w.capacity
  · obtain ⟨hlist, hsum, hout⟩ := push_of_room hroom value
    obtain ⟨hlist', hsum', hout'⟩ := push_of_room (w := v) (by omega) value
    refine ⟨⟨?_, ?_, ?_⟩, hout'.trans hout.symm⟩
    · rw [capacity_push, capacity_push, hcapacity]
    · rw [hsum', hsum, h.sum_eq]
    · rw [hlist', hlist, h.toList_eq]
  · obtain ⟨oldest, rest, hw, hlist, hsum, hout⟩ := push_of_full hroom value
    obtain ⟨oldest', rest', hv, hlist', hsum', hout'⟩ := push_of_full (w := v) (by omega) value
    rw [h.toList_eq, hw, List.cons.injEq] at hv
    obtain ⟨rfl, rfl⟩ := hv
    refine ⟨⟨?_, ?_, ?_⟩, hout'.trans hout.symm⟩
    · rw [capacity_push, capacity_push, hcapacity]
    · rw [hsum', hsum, h.sum_eq]
    · rw [hlist', hlist]

theorem mean?_eq (h : v.Same w) : v.mean? = w.mean? := by
  unfold mean? isFull
  rw [h.size_eq, h.capacity_eq, h.sum_eq]

end Same

end RollingWindow

end MarketReplay
