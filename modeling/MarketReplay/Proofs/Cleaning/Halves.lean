import Mathlib.Data.Finset.Max
import Mathlib.Data.Multiset.Sort
import Mathlib.Algebra.Order.Group.Multiset
import Mathlib.Algebra.Ring.Parity
import MarketReplay.Cleaning.Interval

/-!
# Halves

Where numbers fall into halves: as many stand below the middle as above it (`Splits`), and the
middle is one number or two. **The middle of a sorted list is such a number, or the mean of such
two** (`isMiddle_of_middle?`). What else is said of a middle follows from this, whatever order the
numbers come in: it is between the least and the greatest of them, and **not more than half of them
lie on either side** (`IsMiddle.isMedian`).

The halves are multisets, and a split is a decomposition and not a statement about places. That
keeps the two parities in one argument: a middle of one number and a middle of two are handled
alike, by the bound on its size.
-/

set_option autoImplicit false

namespace MarketReplay

/-! ## Parts of one size

A split says where the parts are and how they compare. The counts below need no more than that the
outer parts have one size and the middle has two numbers at most. -/

/-- Numbers fall into a lower part, a middle and an upper part. The lower and the upper part are of
one size. -/
structure Splits (all lower middle upper : Multiset Int) : Prop where
  all_eq : all = lower + middle + upper
  card_eq : lower.card = upper.card
  lower_le : ∀ d ∈ lower, ∀ c ∈ middle, d ≤ c
  le_upper : ∀ c ∈ middle, ∀ d ∈ upper, c ≤ d

theorem splits_of_sorted {l lower middle upper : List Int} (hsorted : l.Pairwise (· ≤ ·))
    (hl : l = lower ++ middle ++ upper) (hlength : lower.length = upper.length) :
    Splits l lower middle upper := by
  subst hl
  obtain ⟨hfront, -, hupper⟩ := List.pairwise_append.mp hsorted
  obtain ⟨-, -, hlower⟩ := List.pairwise_append.mp hfront
  refine ⟨?_, hlength, hlower, ?_⟩
  · rw [Multiset.coe_add, Multiset.coe_add]
  · exact fun c hc d hd => hupper c (List.mem_append_right lower hc) d hd

/-- Not more than half are of a kind that leaves out one of two parts of one size, and one number of
a middle of two or fewer. Counting what is below the middle and what is above it are two cases of
this. -/
theorem two_mul_countP_le {p : Int → Prop} [DecidablePred p] {part middle other : Multiset Int}
    {c : Int} (hcard : part.card = other.card) (hother : ∀ d ∈ other, ¬p d) (hc : c ∈ middle)
    (hpc : ¬p c) (hmiddle : middle.card ≤ 2) :
    2 * (part + middle + other).countP p ≤ (part + middle + other).card := by
  have hpart : part.countP p ≤ part.card := Multiset.countP_le_card p part
  have hlt : middle.countP p < middle.card := by
    refine lt_of_le_of_ne (Multiset.countP_le_card p middle) fun heq => ?_
    exact hpc (Multiset.countP_eq_card.mp heq c hc)
  rw [Multiset.countP_add, Multiset.countP_add, Multiset.countP_eq_zero.mpr hother,
    Multiset.card_add, Multiset.card_add]
  omega

namespace Splits

variable {all lower middle upper : Multiset Int} {c m : Int}

theorem mem (h : Splits all lower middle upper) (hc : c ∈ middle) : c ∈ all := by
  rw [h.all_eq]
  exact Multiset.mem_add.mpr (.inl (Multiset.mem_add.mpr (.inr hc)))

theorem card (h : Splits all lower middle upper) :
    all.card = 2 * lower.card + middle.card := by
  rw [h.all_eq, Multiset.card_add, Multiset.card_add, h.card_eq]
  omega

theorem two_mul_countP_lt_le (h : Splits all lower middle upper) (hmiddle : middle.card ≤ 2)
    (hc : c ∈ middle) (hm : m ≤ c) : 2 * all.countP (· < m) ≤ all.card := by
  rw [h.all_eq]
  refine two_mul_countP_le h.card_eq (fun d hd => ?_) hc (by omega) hmiddle
  have := h.le_upper c hc d hd
  omega

theorem two_mul_countP_gt_le (h : Splits all lower middle upper) (hmiddle : middle.card ≤ 2)
    (hc : c ∈ middle) (hm : c ≤ m) : 2 * all.countP (m < ·) ≤ all.card := by
  -- the same parts, told from above
  have hall : all = upper + middle + lower := by
    rw [h.all_eq, add_comm lower, add_comm (middle + lower), ← add_assoc]
  rw [hall]
  refine two_mul_countP_le h.card_eq.symm (fun d hd => ?_) hc (by omega) hmiddle
  have := h.lower_le d hd c hc
  omega

end Splits

/-! ## The middle

What it is to be in the middle, for both parities, and what follows from it without another look at
the list. `IsMedian` collects the consequences in the form in which they are stated of intervals. -/

/-- The middle of some numbers: the one that splits them into halves, or the mean of the two that
do, rounded down. -/
inductive IsMiddle (all : Multiset Int) : Int → Prop
  | one {lower upper : Multiset Int} {m : Int} (h : Splits all lower {m} upper) : IsMiddle all m
  | two {lower upper : Multiset Int} {low high : Int} (h : Splits all lower {low, high} upper)
    (hle : low ≤ high) : IsMiddle all ((low + high) / 2)

namespace IsMiddle

variable {all : Multiset Int} {m : Int}

theorem exists_le_ge (h : IsMiddle all m) : (∃ low ∈ all, low ≤ m) ∧ ∃ high ∈ all, m ≤ high := by
  cases h with
  | one h =>
    have hm := h.mem (Multiset.mem_singleton_self m)
    exact ⟨⟨m, hm, le_rfl⟩, m, hm, le_rfl⟩
  | @two _ _ low high h hle =>
    exact ⟨⟨low, h.mem (by simp), by omega⟩, high, h.mem (by simp), by omega⟩

/-- **Not more than half lie below the middle.** Everything below it is among the smaller half of
the list. -/
theorem two_mul_countP_lt_le (h : IsMiddle all m) : 2 * all.countP (· < m) ≤ all.card := by
  cases h with
  | one h => exact h.two_mul_countP_lt_le (by simp) (Multiset.mem_singleton_self m) le_rfl
  | @two _ _ low high h hle =>
    exact h.two_mul_countP_lt_le (c := high) (by simp) (by simp) (by omega)

/-- **Not more than half lie above the middle.** The mean of two numbers, rounded down, is not below
the lower of them, so everything above it is among the larger half. -/
theorem two_mul_countP_gt_le (h : IsMiddle all m) : 2 * all.countP (m < ·) ≤ all.card := by
  cases h with
  | one h => exact h.two_mul_countP_gt_le (by simp) (Multiset.mem_singleton_self m) le_rfl
  | @two _ _ low high h hle =>
    exact h.two_mul_countP_gt_le (c := low) (by simp) (by simp) (by omega)

theorem mem_of_odd (h : IsMiddle all m) (hodd : Odd all.card) : m ∈ all := by
  cases h with
  | one h => exact h.mem (Multiset.mem_singleton_self m)
  | two h hle =>
    have hcard := h.card
    rw [Multiset.card_pair] at hcard
    obtain ⟨k, hk⟩ := hodd
    omega

theorem exists_splits_of_even (h : IsMiddle all m) (heven : Even all.card) :
    ∃ lower low high upper,
      Splits all lower {low, high} upper ∧ low ≤ high ∧ m = (low + high) / 2 := by
  cases h with
  | one h =>
    have hcard := h.card
    rw [Multiset.card_singleton] at hcard
    obtain ⟨k, hk⟩ := heven
    omega
  | @two lower upper low high h hle => exact ⟨lower, low, high, upper, h, hle, rfl⟩

end IsMiddle

/-- A median of some numbers. Not more than half of them are below it and not more than half above
it, and it is between the least and the greatest. It is one of an odd number of them, and the mean
of the two in the middle of an even number, rounded down. -/
structure IsMedian (all : Multiset Int) (m : Int) : Prop where
  half_below : 2 * all.countP (· < m) ≤ all.card
  half_above : 2 * all.countP (m < ·) ≤ all.card
  between : ∃ least greatest, IsLeast {d | d ∈ all} least ∧ IsGreatest {d | d ∈ all} greatest ∧
    least ≤ m ∧ m ≤ greatest
  mem_of_odd : Odd all.card → m ∈ all
  mean_of_even : Even all.card → ∃ lower low high upper,
    Splits all lower {low, high} upper ∧ low ≤ high ∧ m = (low + high) / 2

/-- **The middle is a median.** From here on it is known by what it has below and above itself, and
no longer by places of a list. -/
theorem IsMiddle.isMedian {all : Multiset Int} {m : Int} (h : IsMiddle all m) :
    IsMedian all m where
  half_below := h.two_mul_countP_lt_le
  half_above := h.two_mul_countP_gt_le
  between := by
    obtain ⟨⟨low, hlow, hlowm⟩, high, hhigh, hmhigh⟩ := h.exists_le_ge
    have hsome : all ≠ 0 := ne_of_mem_of_not_mem' hlow (Multiset.notMem_zero low)
    obtain ⟨least, hleast, hminimal⟩ := Multiset.exists_min_image id hsome
    obtain ⟨greatest, hgreatest, hmaximal⟩ := Multiset.exists_max_image id hsome
    exact ⟨least, greatest, ⟨hleast, hminimal⟩, ⟨hgreatest, hmaximal⟩,
      (hminimal low hlow).trans hlowm, hmhigh.trans (hmaximal high hhigh)⟩
  mem_of_odd := h.mem_of_odd
  mean_of_even := h.exists_splits_of_even

/-! ## The middle of a list

The definition reads one or two places of a sorted list. The list around these places is the
split. -/

variable {l : List Int} {m : Int}

theorem middle?_cases (h : middle? l = some m) :
    (l.length % 2 = 1 ∧ l[l.length / 2]? = some m) ∨
      (l.length % 2 = 0 ∧ ∃ low high, l[l.length / 2 - 1]? = some low ∧
        l[l.length / 2]? = some high ∧ m = (low + high) / 2) := by
  unfold middle? at h
  dsimp only at h
  split at h
  · rename_i heven
    split at h
    · rename_i low high hlow hhigh
      exact Or.inr ⟨heven, low, high, hlow, hhigh, (Option.some.inj h).symm⟩
    · cases h
  · exact Or.inl ⟨by omega, h⟩

theorem middle?_eq_none_iff : middle? l = none ↔ l = [] := by
  unfold middle?
  constructor
  · intro h
    by_contra hne
    have hpos := List.length_pos_iff.mpr hne
    have hlow : l.length / 2 - 1 < l.length := by omega
    have hmid : l.length / 2 < l.length := by omega
    simp only [List.getElem?_eq_getElem hlow, List.getElem?_eq_getElem hmid] at h
    split at h <;> cases h
  · rintro rfl
    rfl

theorem take_append_getElem?_drop {i : Nat} (h : l[i]? = some m) :
    l = l.take i ++ [m] ++ l.drop (i + 1) := by
  obtain ⟨hi, rfl⟩ := List.getElem?_eq_some_iff.mp h
  rw [List.append_assoc, List.singleton_append, ← List.drop_eq_getElem_cons hi,
    List.take_append_drop]

/-- **The middle of a sorted list splits it into halves.** For an odd length the list is cut around
one place, and for an even one around two neighbours; the lengths of what is left on either side are
equal by arithmetic. -/
theorem isMiddle_of_middle? (hsorted : l.Pairwise (· ≤ ·)) (h : middle? l = some m) :
    IsMiddle l m := by
  rcases middle?_cases h with ⟨hodd, hm⟩ | ⟨heven, low, high, hlow, hhigh, rfl⟩
  · refine .one (splits_of_sorted hsorted (take_append_getElem?_drop hm) ?_)
    rw [List.length_take, List.length_drop]
    omega
  · have hplace := (List.getElem?_eq_some_iff.mp hhigh).1
    have hfront : l.take (l.length / 2) = l.take (l.length / 2 - 1) ++ [low] := by
      have hsucc : l.length / 2 = l.length / 2 - 1 + 1 := by omega
      conv_lhs => rw [hsucc, List.take_add_one, hlow, Option.toList_some]
    -- the two middle values side by side, with as many in front as behind
    have hl : l = l.take (l.length / 2 - 1) ++ [low, high] ++ l.drop (l.length / 2 + 1) := by
      have hplaced := take_append_getElem?_drop hhigh
      rwa [hfront, List.append_assoc (l.take _)] at hplaced
    have hpair : [low, high].Pairwise (· ≤ ·) := by
      rw [hl] at hsorted
      exact (List.pairwise_append.mp (List.pairwise_append.mp hsorted).1).2.1
    refine .two (splits_of_sorted hsorted hl ?_) (List.pairwise_pair.mp hpair)
    rw [List.length_take, List.length_drop]
    omega

end MarketReplay
