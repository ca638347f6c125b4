import Mathlib.Data.List.Basic
import Mathlib.Data.List.Induction
import MarketReplay.Indicator.RelativeStrength

/-!
# Relative strength along a list

The state of the indicator after some prices, for numbers of any kind. What does not depend on their
arithmetic is its bookkeeping (`RelativeStrength.Counts`): the price it keeps is the last one, and
it has seen one change less than prices. Hence **the indicator is silent up to the period and speaks
from there on** (`getElem?_relativeStrengths`), and what it says at a place is the strength of the
state that the prices up to this place lead to.

The closed form over exact numbers and the rule on doubles both need the bookkeeping, and nothing
else of the state is common to them; so it is proved here, once, for every scalar.
-/

set_option autoImplicit false

namespace MarketReplay

namespace RelativeStrength

variable {α : Type} [Scalar α]

/-- The state after some prices. -/
def after (s : RelativeStrength α) (prices : List α) : RelativeStrength α :=
  prices.foldl (fun s price => (s.update price).1) s

/-- The strength that the averages of a state stand for, whether the state has seen enough prices to
answer with it or not. -/
def value (s : RelativeStrength α) : α := strength s.averageGain s.averageLoss

theorem after_concat (s : RelativeStrength α) (prices : List α) (price : α) :
    s.after (prices ++ [price]) = ((s.after prices).update price).1 := by
  rw [after, List.foldl_append]
  rfl

theorem getElem?_along (s : RelativeStrength α) (prices : List α) (i : Nat) :
    (s.along prices)[i]? = prices[i]?.map fun price =>
      ((s.after (prices.take i)).update price).2 := by
  induction prices generalizing s i with
  | nil => rfl
  | cons price rest ih =>
    cases i with
    | zero => rfl
    | succ i => exact ih (s.update price).1 i

/-! ## One price

What a price does to the state. The first price only becomes the one before; every other makes a
change. -/

section update

variable {s : RelativeStrength α} {price before : α}

/-- A change is counted, whatever it does to the averages. That the two branches agree on this is
why the books can be kept without knowing in which phase the state is. -/
theorem counts_afterChange (s : RelativeStrength α) (delta : α) :
    (s.afterChange delta).period = s.period ∧ (s.afterChange delta).previous = s.previous ∧
      (s.afterChange delta).changes = s.changes + 1 := by
  unfold afterChange
  simp only []
  split <;> exact ⟨rfl, rfl, rfl⟩

theorem update_of_first (h : s.previous = none) :
    s.update price = ({ s with previous := some price }, none) := by
  rw [update, h]

theorem fst_update_of_next (h : s.previous = some before) :
    (s.update price).1 = ({ s with previous := some price }).afterChange (price - before) := by
  rw [update, h]

theorem snd_update_of_next (h : s.previous = some before) :
    (s.update price).2 =
      if (s.update price).1.changes < (s.update price).1.period then none
      else some (s.update price).1.value := by
  rw [update, h]
  rfl

theorem period_update (s : RelativeStrength α) (price : α) :
    (s.update price).1.period = s.period := by
  cases h : s.previous with
  | none => rw [update_of_first h]
  | some before =>
    rw [fst_update_of_next h]
    exact (counts_afterChange ..).1

end update

/-! ## Many prices

The books along a list of prices, by an induction at its end: the state has seen all but the last
price, and takes that one. -/

/-- The books of a state after some prices. The number of changes is cut off at zero, so that no
price and one price have the same number. -/
structure Counts (period : Nat) (prices : List α) (s : RelativeStrength α) : Prop where
  period_eq : s.period = Nat.max period 1
  previous_eq : s.previous = prices.getLast?
  changes_eq : s.changes = prices.length - 1

namespace Counts

variable {period : Nat} {prices : List α} {s : RelativeStrength α}

theorem start (period : Nat) : Counts period ([] : List α) (start period) := ⟨rfl, rfl, rfl⟩

theorem update (h : Counts period prices s) (price : α) :
    Counts period (prices ++ [price]) (s.update price).1 := by
  have hperiod := (period_update s price).trans h.period_eq
  rcases List.eq_nil_or_concat' prices with rfl | ⟨earlier, before, rfl⟩
  · refine ⟨hperiod, ?_, ?_⟩ <;> rw [update_of_first h.previous_eq]
    · rfl
    · exact h.changes_eq
  · have hprevious : s.previous = some before := by rw [h.previous_eq, List.getLast?_concat]
    have hchanges := h.changes_eq
    obtain ⟨-, hprevious', hchanges'⟩ :=
      counts_afterChange { s with previous := some price } (price - before)
    refine ⟨hperiod, ?_, ?_⟩ <;> rw [fst_update_of_next hprevious]
    · rw [hprevious', List.getLast?_concat]
    · rw [hchanges']
      simp only [List.length_append, List.length_singleton] at hchanges ⊢
      omega

/-- A state answers from the change on that completes the period. The number of prices decides this,
and not the prices. -/
theorem snd_update (h : Counts period prices s) (hperiod : 0 < period) (price : α) :
    (s.update price).2 =
      if prices.length < period then none else some (s.update price).1.value := by
  rcases List.eq_nil_or_concat' prices with rfl | ⟨earlier, before, rfl⟩
  · rw [update_of_first h.previous_eq]
    exact (if_pos hperiod).symm
  · have hnext := h.update price
    have hlimit : Nat.max period 1 = period := Nat.max_eq_left hperiod
    have hcount : (earlier ++ [before] ++ [price]).length - 1 = (earlier ++ [before]).length := by
      rw [List.length_append, List.length_singleton, Nat.add_sub_cancel]
    have hprevious : s.previous = some before := by rw [h.previous_eq, List.getLast?_concat]
    rw [snd_update_of_next hprevious, hnext.changes_eq, hnext.period_eq, hlimit, hcount]

theorem after (period : Nat) (prices : List α) :
    Counts period prices ((RelativeStrength.start period).after prices) := by
  induction prices using List.reverseRecOn with
  | nil => exact start period
  | append_singleton earlier price ih =>
    rw [after_concat]
    exact ih.update price

end Counts

end RelativeStrength

open RelativeStrength in
/-- **What the indicator says at a place**: nothing before the period, and from there on the
strength of the state that the prices up to the place lead to. -/
theorem getElem?_relativeStrengths {α : Type} [Scalar α] {period : Nat} (hperiod : 0 < period)
    (prices : List α) (i : Nat) :
    (relativeStrengths prices period)[i]? = prices[i]?.map fun _ =>
      if i < period then none else some ((start period).after (prices.take (i + 1))).value := by
  rw [relativeStrengths, if_neg (Nat.ne_of_gt hperiod), getElem?_along]
  cases hprice : prices[i]? with
  | none => rfl
  | some price =>
    have htake : prices.take (i + 1) = prices.take i ++ [price] := by
      rw [List.take_add_one, hprice]
      rfl
    have hlength : (prices.take i).length = i :=
      List.length_take_of_le (Nat.le_of_lt (List.getElem?_eq_some_iff.mp hprice).1)
    simp only [Option.map_some]
    rw [(Counts.after period (prices.take i)).snd_update hperiod, hlength, htake, after_concat]

end MarketReplay
