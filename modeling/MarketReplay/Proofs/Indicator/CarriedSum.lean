import MarketReplay.Proofs.Double.Swamped
import MarketReplay.Proofs.Double.Whole
import MarketReplay.Proofs.Indicator.Trailing

/-!
# The carried sum of doubles

A window never adds its values up: it carries their sum along. While all the values are whole
numbers of moderate size nothing is lost on the way, and the carried sum is the sum of the values
held (`RollingWindow.Tallies`). **So windows that hold the same values carry the same sum**,
whatever was in them before (`RollingWindow.Tallies.sum_congr`).

Other values leave something behind. **An infinite value is never forgotten**: it swamps the sum
while it is held, and when it has left the window the sum is `NaN` for good
(`RollingWindow.isNaN_sum_fed`).

Each of the two halves is an invariant of `push`. The first needs every value to be small; the
second needs nothing of the others, since nothing that is added to an infinity or a `NaN` can mend
it.
-/

set_option autoImplicit false

namespace MarketReplay.RollingWindow

variable {w w' : RollingWindow Float}

/-! ## Whole numbers

Sums of whole numbers below 2^53 are exact in doubles. A window has a bounded number of values, so a
bound on each of them is one on every sum that it can carry. -/

/-- The window holds small whole numbers and carries their sum. The numbers are given beside the
window as natural numbers, in which the sum is exact by definition. -/
structure Tallies (w : RollingWindow Float) (counts : List ℕ) : Prop where
  held : List.Forall₂ Double.IsWhole w.toList counts
  small : ∀ k ∈ counts, k * w.capacity < 2 ^ 53
  sum_eq : w.sum.toModel.unpack = Double.whole counts.sum

/-- A few numbers that are each small enough have a sum that is. The bound is on each number times
the capacity, which is how it is asked of volumes. -/
theorem sum_lt_of_small {counts : List ℕ} {n bound : ℕ} (hlength : counts.length ≤ n) (hn : 0 < n)
    (hbound : 0 < bound) (hsmall : ∀ k ∈ counts, k * n < bound) : counts.sum < bound := by
  have hle : ∀ k ∈ counts, k ≤ (bound - 1) / n := by
    intro k hk
    have := hsmall k hk
    rw [Nat.le_div_iff_mul_le hn]
    omega
  calc counts.sum ≤ counts.length • ((bound - 1) / n) := List.sum_le_card_nsmul counts _ hle
    _ ≤ n * ((bound - 1) / n) := Nat.mul_le_mul_right _ hlength
    _ ≤ bound - 1 := Nat.mul_div_le ..
    _ < bound := by omega

namespace Tallies

variable {counts counts' : List ℕ}

theorem empty (capacity : Nat) :
    (RollingWindow.empty capacity : RollingWindow Float).Tallies [] where
  held := by rw [toList_empty]; exact .nil
  small := by simp
  sum_eq := Double.unpack_ofNat (by decide)

theorem sum_lt (h : w.Tallies counts) : counts.sum < 2 ^ 53 := by
  refine sum_lt_of_small ?_ w.capacity_pos (by decide) h.small
  rw [← h.held.length_eq, length_toList]
  exact w.size_le_capacity

/-- A small whole number that has entered at the end, and been added, is counted. This is the half
of `push` that a window with room and a full one share. -/
theorem entered {rest : List Float} {value carried : Float}
    (hrest : List.Forall₂ Double.IsWhole rest counts)
    (hsmall : ∀ k ∈ counts, k * w.capacity < 2 ^ 53)
    (hcarried : carried.toModel.unpack = Double.whole counts.sum)
    (hvalue : Double.Moderate w.capacity value)
    (hlist : w.toList = rest ++ [value]) (hsum : w.sum = carried + value) :
    ∃ counts', w.Tallies counts' := by
  obtain ⟨k, hk, hwhole⟩ := hvalue.isWhole w.capacity_pos
  have hheld : List.Forall₂ Double.IsWhole w.toList (counts ++ [k]) := by
    rw [hlist]
    exact List.rel_append hrest (.cons hwhole .nil)
  have hall : ∀ n ∈ counts ++ [k], n * w.capacity < 2 ^ 53 :=
    List.forall_mem_append.mpr ⟨hsmall, List.forall_mem_singleton.mpr hk⟩
  -- no more counts than the window holds, each so small that as many of them stay exact
  have hbound : (counts ++ [k]).sum < 2 ^ 53 := by
    refine sum_lt_of_small ?_ w.capacity_pos (by decide) hall
    rw [← hheld.length_eq, length_toList]
    exact w.size_le_capacity
  refine ⟨counts ++ [k], hheld, hall, ?_⟩
  rw [List.sum_append, List.sum_singleton] at hbound ⊢
  rw [hsum]
  exact Double.unpack_add_isWhole hcarried hwhole hbound

/-- A small whole number that enters is counted, and one that leaves is taken back exactly. Taking
back comes first, and its result is a sum of fewer numbers and so still small. -/
theorem push (h : w.Tallies counts) {value : Float} (hvalue : Double.Moderate w.capacity value) :
    ∃ counts', (w.push value).1.Tallies counts' := by
  rw [← capacity_push w value] at hvalue
  by_cases hroom : w.size < w.capacity
  · obtain ⟨hlist, hsum, -⟩ := push_of_room hroom value
    exact entered h.held (by rw [capacity_push]; exact h.small) h.sum_eq hvalue hlist hsum
  · obtain ⟨oldest, rest, hfront, hlist, hsum, -⟩ := push_of_full hroom value
    have hheld := h.held
    rw [hfront, List.forall₂_cons_left_iff] at hheld
    obtain ⟨first, others, hfirst, hothers, rfl⟩ := hheld
    have hcarried := h.sum_eq
    have hbound := h.sum_lt
    rw [List.sum_cons, Nat.add_comm] at hcarried hbound
    exact entered hothers
      (by rw [capacity_push]; exact (List.forall_mem_cons.mp h.small).2)
      (Double.unpack_sub_isWhole hcarried hfirst hbound) hvalue hlist hsum

theorem fed (h : w.Tallies counts) {values : List Float}
    (hvalues : ∀ v ∈ values, Double.Moderate w.capacity v) :
    ∃ counts', (w.fed values).Tallies counts' := by
  induction values generalizing w counts with
  | nil => exact ⟨counts, h⟩
  | cons value rest ih =>
    obtain ⟨hvalue, hrest⟩ := List.forall_mem_cons.mp hvalues
    obtain ⟨counts', h'⟩ := h.push hvalue
    rw [← capacity_push w value] at hrest
    exact ih h' hrest

/-- **Windows that hold the same whole numbers carry the same sum.** The sum is the double of the
sum of the counts, and these are determined by the values. -/
theorem sum_congr (h : w.Tallies counts) (h' : w'.Tallies counts') (heq : w.toList = w'.toList) :
    w.sum = w'.sum := by
  have hheld := h'.held
  rw [← heq] at hheld
  have hunique : Relator.RightUnique Double.IsWhole := fun _ _ _ => Double.IsWhole.unique
  obtain rfl := List.right_unique_forall₂' hunique h.held hheld
  exact Double.eq_of_unpack_eq (h.sum_eq.trans h'.sum_eq.symm)

end Tallies

/-! ## Infinities

The life of an infinite value in a window: it enters, is pushed on towards the front, leaves, and
the sum is `NaN` ever after. The disjunction in `Spoiled` is the last step of it. -/

/-- What an infinite value does to a window, as long as the values `later` have come after it: the
sum is swamped while the value is held, and `NaN` afterwards. A sum that was `NaN` already is
covered by the first case, whatever it came from. -/
def Spoiled (w : RollingWindow Float) (x : Float) (later : List Float) : Prop :=
  Scalar.isNaN w.sum = true ∨
    Double.Swamped w.sum ∧ ∃ earlier, w.toList = earlier ++ x :: later

variable {x : Float} {later : List Float}

theorem spoiled_push (w : RollingWindow Float) (hx : x.toModel.unpack = .infinity .positive) :
    (w.push x).1.Spoiled x [] := by
  refine .inr ?_
  by_cases hroom : w.size < w.capacity
  · obtain ⟨hlist, hsum, -⟩ := push_of_room hroom x
    exact ⟨hsum ▸ Double.swamped_add_infinite _ hx, w.toList, hlist⟩
  · obtain ⟨oldest, rest, -, hlist, hsum, -⟩ := push_of_full hroom x
    exact ⟨hsum ▸ Double.swamped_add_infinite _ hx, rest, hlist⟩

namespace Spoiled

/-- The infinite value is pushed on, and its way out turns the sum into `NaN`. The interesting case
is a full window with the infinite value in front: the swamped sum loses it, which is infinity less
infinity. -/
theorem push (h : w.Spoiled x later) (hx : x.toModel.unpack = .infinity .positive) (value : Float) :
    (w.push value).1.Spoiled x (later ++ [value]) := by
  unfold Spoiled
  by_cases hroom : w.size < w.capacity
  · obtain ⟨hlist, hsum, -⟩ := push_of_room hroom value
    rw [hsum, hlist]
    -- with room nothing leaves, and the infinite value stays where it is
    rcases h with hnan | ⟨hswamped, earlier, hheld⟩
    · exact .inl (Double.isNaN_add hnan value)
    · refine .inr ⟨hswamped.add value, earlier, ?_⟩
      rw [hheld, List.append_assoc, List.cons_append]
  · obtain ⟨oldest, rest, hfront, hlist, hsum, -⟩ := push_of_full hroom value
    rw [hsum, hlist]
    rcases h with hnan | ⟨hswamped, earlier, hheld⟩
    · exact .inl (Double.isNaN_add (Double.isNaN_sub hnan oldest) value)
    · rw [hfront] at hheld
      cases earlier with
      | nil =>
        -- the value that leaves is the infinite one
        obtain ⟨rfl, -⟩ := List.cons.inj hheld
        exact .inl (Double.isNaN_add (hswamped.isNaN_sub hx) value)
      | cons first earlier =>
        rw [List.cons_append] at hheld
        obtain ⟨-, rfl⟩ := List.cons.inj hheld
        refine .inr ⟨(hswamped.sub oldest).add value, earlier, ?_⟩
        rw [List.append_assoc, List.cons_append]

theorem fed (h : w.Spoiled x later) (hx : x.toModel.unpack = .infinity .positive)
    (more : List Float) : (w.fed more).Spoiled x (later ++ more) := by
  induction more generalizing w later with
  | nil => rwa [List.append_nil]
  | cons value rest ih =>
    rw [List.append_cons]
    exact ih (h.push hx value)

/-- When more values have come than the window holds, the infinite one is not held. -/
theorem isNaN_sum (h : w.Spoiled x later) (hlong : w.capacity ≤ later.length) :
    Scalar.isNaN w.sum = true := by
  rcases h with hnan | ⟨-, earlier, hheld⟩
  · exact hnan
  · have hlength := length_toList w
    have hfull := w.size_le_capacity
    rw [hheld, List.length_append, List.length_cons] at hlength
    omega

end Spoiled

/-- **An infinite value that has left a window has made its sum `NaN`.** -/
theorem isNaN_sum_fed (w : RollingWindow Float) (hx : x.toModel.unpack = .infinity .positive)
    (earlier : List Float) (hlong : w.capacity ≤ later.length) :
    Scalar.isNaN (w.fed (earlier ++ x :: later)).sum = true := by
  have hfed : w.fed (earlier ++ x :: later) = (((w.fed earlier).push x).1).fed later := by
    rw [RollingWindow.fed, List.foldl_append]
    rfl
  have hspoiled := (spoiled_push (w.fed earlier) hx).fed hx later
  rw [List.nil_append, ← hfed] at hspoiled
  exact hspoiled.isNaN_sum (by rwa [capacity_fed])

end MarketReplay.RollingWindow
