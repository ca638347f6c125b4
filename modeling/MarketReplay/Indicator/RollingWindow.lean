import MarketReplay.Room
import MarketReplay.Scalar

/-!
# Rolling windows

The last few values of a stream and their sum. The sum is carried along: a value that enters is
added, a value that leaves is subtracted, in this order of events: first the leaving value, then the
entering one. With rounding numbers the carried sum is therefore not always the sum of the values
held, and a value that is not finite spoils it until the window is cleared.

The values stand in a ring of slots. The next value goes to the slot at `head`, and once the window
is full that slot holds the oldest value. A slot is laid out when it is first written, so that a
large capacity costs nothing until it is used. Clearing a window forgets the place, the count and
the sum, and leaves the old values in their slots.

Here a window exists for every capacity. The program lays out all slots at once, and for 2^60 values
or more, which are more bytes than it can count, it breaks off instead of making a window; where the
memory ends it does so before. This is recorded in `RollingWindow.room`, and everything else is
about a window that was made.
-/

set_option autoImplicit false

namespace MarketReplay

/-- A ring of slots with the place of the next value, the number of values and their carried sum.
The bounds between them are part of the structure: a place outside the ring cannot be written down,
and `push` reads the oldest value without asking whether it is there. -/
structure RollingWindow (α : Type) where
  capacity : Nat
  /-- The slots laid out so far. -/
  slots : Array α
  /-- The slot of the next value. -/
  head : Nat
  size : Nat
  sum : α
  capacity_pos : 0 < capacity
  head_lt : head < capacity
  size_le : size ≤ slots.size
  slots_le : slots.size ≤ capacity
  /-- Until the window is full its values stand in the first slots. -/
  head_eq : size < capacity → head = size

namespace RollingWindow

variable {α : Type}

/-- The values held, oldest first. Nothing computes with this list; it is what a window means, and
the lemmas on `push` and `clear` say what they do to it. -/
def toList (w : RollingWindow α) : List α :=
  if w.size < w.capacity then w.slots.toList.take w.size
  else w.slots.toList.drop w.head ++ w.slots.toList.take w.head

def isFull (w : RollingWindow α) : Bool := w.size == w.capacity

def isEmpty (w : RollingWindow α) : Bool := w.size == 0

theorem size_le_capacity (w : RollingWindow α) : w.size ≤ w.capacity :=
  Nat.le_trans w.size_le w.slots_le

theorem slots_size_of_full {w : RollingWindow α} (h : ¬w.size < w.capacity) :
    w.slots.size = w.capacity := by
  have := w.size_le
  have := w.slots_le
  omega

/-- Slots with a value at a place, which is laid out if it is the next one. There is no third case:
the place of the next value is never beyond the slots (`head_le_slots`). -/
def written (slots : Array α) (place : Nat) (value : α) : Array α :=
  if h : place < slots.size then slots.set place value h else slots.push value

theorem size_written {slots : Array α} {place : Nat} (h : place ≤ slots.size) (value : α) :
    (written slots place value).size = Nat.max slots.size (place + 1) := by
  unfold written
  split
  · rw [Array.size_set]
    exact (Nat.max_eq_left (by omega)).symm
  · rw [Array.size_push]
    have : place = slots.size := by omega
    subst this
    exact (Nat.max_eq_right (by omega)).symm

theorem head_le_slots (w : RollingWindow α) : w.head ≤ w.slots.size := by
  by_cases h : w.size < w.capacity
  · exact w.head_eq h ▸ w.size_le
  · rw [slots_size_of_full h]
    exact Nat.le_of_lt w.head_lt

variable [Scalar α]

/-- The room for a full window, at eight bytes a value. From a capacity of 2^60 on there is none,
and less will do to leave the memory of a machine. -/
def room (capacity : Nat) : Room := Room.forTable (Nat.max capacity 1) 8

/-- A window without values. A capacity of zero counts as one. Every capacity has its window here;
that the program breaks off for capacities from 2^60 on, and where its memory ends, is said by
`room` alone. -/
def empty (capacity : Nat) : RollingWindow α where
  capacity := Nat.max capacity 1
  slots := #[]
  head := 0
  size := 0
  sum := 0
  capacity_pos := Nat.le_max_right ..
  head_lt := Nat.le_max_right ..
  size_le := Nat.zero_le _
  slots_le := Nat.zero_le _
  head_eq _ := rfl

/-- The window without its values; its slots stay as they are. The sum starts from zero again, so
that a value that had spoiled it is forgotten. -/
def clear (w : RollingWindow α) : RollingWindow α :=
  { w with
    head := 0
    size := 0
    sum := 0
    head_lt := w.capacity_pos
    size_le := Nat.zero_le _
    head_eq := fun _ => rfl }

/-- Adds a value. A full window gives up its oldest value, which is returned. The value that leaves
is subtracted before the new one is added: in floats the order can be told from the sum. -/
def push (w : RollingWindow α) (value : α) : RollingWindow α × Option α :=
  have head_lt := Nat.mod_lt (w.head + 1) w.capacity_pos
  have size_eq := size_written w.head_le_slots value
  have slots_le : (written w.slots w.head value).size ≤ w.capacity :=
    size_eq ▸ Nat.max_le.mpr ⟨w.slots_le, w.head_lt⟩
  if h : w.size < w.capacity then
    -- until the window is full the next slot is the first that is not laid out
    have hhead := w.head_eq h
    ({ w with
        slots := written w.slots w.head value
        head := (w.head + 1) % w.capacity
        size := w.size + 1
        sum := w.sum + value
        head_lt
        size_le := by rw [size_eq, hhead]; exact Nat.le_max_right ..
        slots_le
        head_eq := fun h' => by rw [hhead]; exact Nat.mod_eq_of_lt h' }, none)
  else
    have hhead : w.head < w.slots.size := slots_size_of_full h ▸ w.head_lt
    let oldest := w.slots[w.head]
    ({ w with
        slots := written w.slots w.head value
        head := (w.head + 1) % w.capacity
        sum := w.sum - oldest + value
        head_lt
        size_le := by rw [size_eq]; exact Nat.le_trans w.size_le (Nat.le_max_left ..)
        slots_le
        head_eq := fun h' => absurd h' h }, some oldest)

/-- The mean of a full window. A window that is not full has none, however many values it holds: the
divisor is always the capacity. -/
def mean? (w : RollingWindow α) : Option α :=
  if w.isFull then some (w.sum / Scalar.ofNat w.capacity) else none

end RollingWindow

/-- The means of a window that moves along a list, from the place where it is full. A period of zero
has no means. There is one entry per value, and those before the window is full are missing. -/
def movingMeans {α : Type} [Scalar α] (values : List α) (period : Nat) : List (Option α) :=
  if period = 0 then values.map fun _ => none
  else along (RollingWindow.empty period) values
where
  along (w : RollingWindow α) : List α → List (Option α)
    | [] => []
    | v :: rest =>
      let w := (w.push v).1
      w.mean? :: along w rest

end MarketReplay
