import MarketReplay.Width

/-!
# Room for tables

A list here has any length. Where a table is laid out before it is filled, its size alone says
whether that can be done. There are two limits: the bytes of a table are counted by a signed number
of 64 bits, and they have to fit into the memory of the machine. A table that cannot be counted is
refused; one that can be counted and does not fit stops the program on the spot.

The room is kept apart from what the tables are for. A window or a series is defined for every
capacity, also for those that no machine has room for, and everything proved of it holds for all of
them. That the program breaks off before it gets there is said by the functions named `room`, and
what prepares a run asks them before it begins (`CommandLine.requireRoom`).
-/

set_option autoImplicit false

namespace MarketReplay

/-- Whether a table can be laid out, and if it cannot, which limit it exceeds: the count, or the
memory alone. They are told apart because the program ends differently: a table beyond the count is
refused with a message, one beyond the memory ends the program without one. -/
inductive Room where
  | enough
  | beyondMemory
  | beyondCount
deriving DecidableEq, Repr

namespace Room

/-- The most bytes a table can be counted to have. They end on a multiple of eight, since numbers of
eight bytes are laid out at such places. -/
def countLimit : Nat := twoTo 63 - 8

/-- The most bytes a table finds in memory: 32 GiB, less one that the system keeps. This is a
machine's number and not the program's, and nothing is proved that depends on it. -/
def memoryLimit : Nat := 31 * twoTo 30

/-- The room for a table of so many entries, of so many bytes each. The count is looked at first: a
table that cannot be counted is never asked for. -/
def forTable (entries bytes : Nat) : Room :=
  if countLimit < entries * bytes then .beyondCount
  else if memoryLimit < entries * bytes then .beyondMemory
  else .enough

/-- The room for tables that are laid out one after the other: the first one without room counts.
The second one is never laid out then. -/
def andThen : Room → Room → Room
  | .enough, next => next
  | shortage, _ => shortage

/-- The room for tables that are laid out side by side: a table that stops the program counts
before one that is refused. -/
def together (rooms : List Room) : Room :=
  if .beyondMemory ∈ rooms then .beyondMemory
  else if .beyondCount ∈ rooms then .beyondCount
  else .enough

end Room

end MarketReplay
