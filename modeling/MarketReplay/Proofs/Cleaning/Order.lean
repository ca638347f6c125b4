import Mathlib.Data.List.Sort
import MarketReplay.Cleaning.Series
import MarketReplay.Proofs.Replay.Walk

/-!
# The last bar of a time

A list of raw bars is looked at through one question: which bar of a time came last (`lastAt?`).
Sorting is stable and does not change the answer; dropping a bar that is followed by one of the same
time does not either. So **the bars that cleaning keeps answer as the valid bars of the input do**
(`lastAt?_ordered`).

The kept bars are in order (`chronological_ordered`), and bars in order are known by their answers
(`Chronological.ext`). Two inputs that answer alike therefore keep the same bars, and this is the
way to every equation between cleaned series: that **bars may be put in order before others join
them** (`ordered_append_left`, `ordered_append_right`) takes no word about interleavings.
-/

set_option autoImplicit false

namespace MarketReplay

variable {α : Type}

/-- The last bar of a time. This is the one thing that cleaning reads out of the order of arrival,
and two lists are as good as equal to it if this function cannot tell them apart. -/
def lastAt? (bars : List (Bar α)) (time : Int) : Option (Bar α) :=
  (bars.filter fun b => decide (b.timestamp = time)).getLast?

/-! ## What came last

Bars of one time need not be neighbours in the raw list, so that what comes last of a time is asked
of the list as a whole. Under appending it behaves like the reading of a log: the later list is
asked first. -/

theorem lastAt?_append (bars more : List (Bar α)) (time : Int) :
    lastAt? (bars ++ more) time = (lastAt? more time).or (lastAt? bars time) := by
  unfold lastAt?
  rw [List.filter_append, List.getLast?_append]

theorem lastAt?_cons (bar : Bar α) (bars : List (Bar α)) (time : Int) :
    lastAt? (bar :: bars) time =
      (lastAt? bars time).or (if bar.timestamp = time then some bar else none) := by
  have happend := lastAt?_append [bar] bars time
  rw [List.singleton_append] at happend
  rw [happend]
  by_cases h : bar.timestamp = time <;> simp [lastAt?, h]

theorem lastAt?_eq_none_iff {bars : List (Bar α)} {time : Int} :
    lastAt? bars time = none ↔ ∀ b ∈ bars, b.timestamp ≠ time := by
  unfold lastAt?
  rw [List.getLast?_eq_none_iff, List.filter_eq_nil_iff]
  simp

/-- The last of the values that pass a test is one behind which none passes. It is stated with the
split of the list that a reader of `clean_content` sees, and proved from the first one of the
reversed list, which the library knows. -/
theorem getLast?_filter_eq_some_iff {β : Type} {p : β → Bool} {l : List β} {a : β} :
    (l.filter p).getLast? = some a ↔
      p a = true ∧ ∃ before after, l = before ++ a :: after ∧ ∀ b ∈ after, ¬p b = true := by
  rw [List.getLast?_filter, List.find?_eq_some_iff_append]
  -- the two sides speak of the same places, the one from behind
  constructor
  · rintro ⟨ha, after, before, hsplit, hafter⟩
    refine ⟨ha, before.reverse, after.reverse, ?_, ?_⟩
    · simpa using congrArg List.reverse hsplit
    · intro b hb
      simpa using hafter b (List.mem_reverse.mp hb)
  · rintro ⟨ha, before, after, rfl, hafter⟩
    refine ⟨ha, after.reverse, before.reverse, by simp, ?_⟩
    intro b hb
    simpa using hafter b (List.mem_reverse.mp hb)

/-- Of the bars that pass a test, a bar is the last of a time when no bar behind it that passes is
of that time. -/
theorem lastAt?_filter_eq_some_iff {p : Bar α → Bool} {bars : List (Bar α)} {time : Int}
    {bar : Bar α} :
    lastAt? (bars.filter p) time = some bar ↔ p bar = true ∧ bar.timestamp = time ∧
      ∃ before after, bars = before ++ bar :: after ∧
        ∀ b ∈ after, p b = true → b.timestamp ≠ time := by
  unfold lastAt?
  rw [List.filter_filter, getLast?_filter_eq_some_iff]
  simp only [Bool.and_eq_true, decide_eq_true_eq]
  constructor
  · rintro ⟨⟨htime, hp⟩, before, after, hsplit, hafter⟩
    exact ⟨hp, htime, before, after, hsplit, fun b hb hpb htimeb => hafter b hb ⟨htimeb, hpb⟩⟩
  · rintro ⟨hp, htime, before, after, hsplit, hafter⟩
    exact ⟨⟨htime, hp⟩, before, after, hsplit, fun b hb h => hafter b hb h.2 h.1⟩

theorem lastAt?_eq_some_iff {bars : List (Bar α)} {time : Int} {bar : Bar α} :
    lastAt? bars time = some bar ↔ bar.timestamp = time ∧
      ∃ before after, bars = before ++ bar :: after ∧ ∀ b ∈ after, b.timestamp ≠ time := by
  have hall := @lastAt?_filter_eq_some_iff α (fun _ => true) bars time bar
  rw [List.filter_true] at hall
  simpa using hall

/-! ## Bars in order

Strictly increasing timestamps leave no room for two bars of one time, and with that a list is no
more than the set of its bars. -/

namespace Chronological

variable {bars bars' : List (Bar α)} {bar : Bar α} {time : Int}

theorem lastAt?_eq_some_iff (h : Chronological bars) :
    lastAt? bars time = some bar ↔ bar ∈ bars ∧ bar.timestamp = time := by
  rw [MarketReplay.lastAt?_eq_some_iff]
  constructor
  · rintro ⟨htime, before, after, rfl, -⟩
    exact ⟨by simp, htime⟩
  · rintro ⟨hmem, rfl⟩
    obtain ⟨before, after, rfl⟩ := List.append_of_mem hmem
    refine ⟨rfl, before, after, rfl, ?_⟩
    intro b hb
    have hpairs := (List.pairwise_append.mp h).2.1
    have hlater := (List.pairwise_cons.mp hpairs).1 b hb
    omega

theorem mem_iff (h : Chronological bars) :
    bar ∈ bars ↔ lastAt? bars bar.timestamp = some bar := by
  rw [h.lastAt?_eq_some_iff]
  simp

/-- Bars in order are known by what comes last at each time. The membership of a bar can be read off
`lastAt?`, and two strictly sorted lists with the same members are equal. -/
theorem ext (h : Chronological bars) (h' : Chronological bars')
    (hlast : ∀ time, lastAt? bars time = lastAt? bars' time) : bars = bars' := by
  have : Std.Irrefl fun a b : Bar α => a.timestamp < b.timestamp := ⟨fun a => Int.lt_irrefl _⟩
  have : Std.Antisymm fun a b : Bar α => a.timestamp < b.timestamp :=
    ⟨fun a b hab hba => absurd hab (Int.not_lt.mpr (Int.le_of_lt hba))⟩
  -- both lists are sorted by one strict order, so their members decide
  refine List.Pairwise.eq_of_mem_iff h h' ?_
  intro bar
  rw [h.mem_iff, h'.mem_iff, hlast]

end Chronological

/-! ## Sorting

The sort is a merge sort of the standard library, of which two things are used: it permutes, and it
keeps what was sorted already in its order. -/

theorem timely_trans (a b c : Bar α) (hab : decide (a.timestamp ≤ b.timestamp) = true)
    (hbc : decide (b.timestamp ≤ c.timestamp) = true) :
    decide (a.timestamp ≤ c.timestamp) = true := by
  simp only [decide_eq_true_eq] at *
  omega

theorem timely_total (a b : Bar α) :
    (decide (a.timestamp ≤ b.timestamp) || decide (b.timestamp ≤ a.timestamp)) = true := by
  simp only [Bool.or_eq_true, decide_eq_true_eq]
  omega

theorem byTime_perm (bars : List (Bar α)) : (byTime bars).Perm bars :=
  List.mergeSort_perm bars _

theorem pairwise_byTime (bars : List (Bar α)) :
    (byTime bars).Pairwise fun a b => a.timestamp ≤ b.timestamp :=
  (List.pairwise_mergeSort timely_trans timely_total bars).imp of_decide_eq_true

/-- Sorting keeps the bars of one time in the order they came in. This is the stability of the sort,
and the only reason why the last bar of a time survives it. -/
theorem filter_byTime (bars : List (Bar α)) (time : Int) :
    (byTime bars).filter (fun b => decide (b.timestamp = time)) =
      bars.filter (fun b => decide (b.timestamp = time)) := by
  have hlevel : (bars.filter fun b => decide (b.timestamp = time)).Pairwise
      fun a b => decide (a.timestamp ≤ b.timestamp) = true := by
    refine List.pairwise_of_forall_mem_list ?_
    intro a ha b hb
    simp only [List.mem_filter, decide_eq_true_eq] at *
    omega
  -- as a sorted part of the list it is a part of the sorted list, and no shorter than all of it
  have hsub := List.sublist_mergeSort timely_trans timely_total hlevel List.filter_sublist
  have hsub' := hsub.filter fun b => decide (b.timestamp = time)
  simp only [List.filter_filter, Bool.and_self] at hsub'
  have hlength := ((byTime_perm bars).filter fun b => decide (b.timestamp = time)).length_eq
  exact (hsub'.eq_of_length hlength.symm).symm

theorem lastAt?_byTime (bars : List (Bar α)) (time : Int) :
    lastAt? (byTime bars) time = lastAt? bars time := by
  unfold lastAt?
  rw [filter_byTime]

/-! ## Keeping the last of each time

One pass over the sorted bars drops every bar whose neighbour behind it has its time. Each fact
about it is an induction along that pass, with a case for a neighbour of the same time and one for
another. -/

theorem mem_of_mem_lastOfEach {bars : List (Bar α)} {bar : Bar α} (h : bar ∈ lastOfEach bars) :
    bar ∈ bars := by
  fun_induction lastOfEach bars with
  | case1 => exact h
  | case2 a => exact h
  | case3 a b rest heq ih => exact List.mem_cons_of_mem a (ih h)
  | case4 a b rest hne ih =>
    rcases List.mem_cons.mp h with rfl | h
    · exact List.mem_cons_self
    · exact List.mem_cons_of_mem a (ih h)

/-- A bar that gives way to the one behind it was not the last of its time. -/
theorem lastAt?_lastOfEach (bars : List (Bar α)) (time : Int) :
    lastAt? (lastOfEach bars) time = lastAt? bars time := by
  fun_induction lastOfEach bars with
  | case1 => rfl
  | case2 a => rfl
  | case3 a b rest heq ih =>
    rw [ih, lastAt?_cons a, lastAt?_cons b, heq]
    by_cases h : b.timestamp = time
    · rw [if_pos h, if_pos h]
      cases lastAt? rest time <;> rfl
    · rw [if_neg h, if_neg h, Option.or_none, Option.or_none]
  | case4 a b rest hne ih => rw [lastAt?_cons, lastAt?_cons a, ih]

/-- A bar is left, or another has taken its place. So the count of duplicates need not be defined as
a difference for the report to add up. -/
theorem superseded_add_length_lastOfEach (bars : List (Bar α)) :
    superseded bars + (lastOfEach bars).length = bars.length := by
  fun_induction lastOfEach bars with
  | case1 => rfl
  | case2 a => rfl
  | case3 a b rest heq ih =>
    simp only [superseded, if_pos heq, List.length_cons] at ih ⊢
    omega
  | case4 a b rest hne ih =>
    simp only [superseded, if_neg hne, List.length_cons] at ih ⊢
    omega

/-- Of sorted bars, one to a time is left, in order. Sorted means not decreasing, and the pass turns
this into strictly increasing. -/
theorem chronological_lastOfEach {bars : List (Bar α)}
    (h : bars.Pairwise fun a b => a.timestamp ≤ b.timestamp) :
    Chronological (lastOfEach bars) := by
  fun_induction lastOfEach bars with
  | case1 => exact List.Pairwise.nil
  | case2 a => exact List.pairwise_singleton _ a
  | case3 a b rest heq ih => exact ih (List.pairwise_cons.mp h).2
  | case4 a b rest hne ih =>
    obtain ⟨hfirst, hrest⟩ := List.pairwise_cons.mp h
    refine List.pairwise_cons.mpr ⟨?_, ih hrest⟩
    intro c hc
    -- the bar behind is strictly later, and all others are not earlier than that one
    have hb : a.timestamp ≤ b.timestamp := hfirst b List.mem_cons_self
    have hbc : b.timestamp ≤ c.timestamp := by
      rcases List.mem_cons.mp (mem_of_mem_lastOfEach hc) with rfl | hc
      · exact Int.le_refl _
      · exact (List.pairwise_cons.mp hrest).1 c hc
    omega

variable [Scalar α]

/-! ## The bars that are kept

The three steps put together. What is kept is a function of the last valid bar of each time, and
this is all that later modules use of sorting and of the pass. -/

theorem chronological_ordered (bars : List (Bar α)) : Chronological (ordered bars) :=
  chronological_lastOfEach (pairwise_byTime _)

/-- **Of each time the last valid bar is kept.** Filtering comes first: an invalid bar that is later
than a valid one of its time does not displace it. -/
theorem lastAt?_ordered (bars : List (Bar α)) (time : Int) :
    lastAt? (ordered bars) time = lastAt? (bars.filter Bar.isValid) time := by
  unfold ordered
  rw [lastAt?_lastOfEach, lastAt?_byTime]

theorem mem_ordered {bars : List (Bar α)} {bar : Bar α} :
    bar ∈ ordered bars ↔ lastAt? (bars.filter Bar.isValid) bar.timestamp = some bar := by
  rw [(chronological_ordered bars).mem_iff, lastAt?_ordered]

/-- The bars that are kept are valid. -/
@[simp] theorem filter_isValid_ordered (bars : List (Bar α)) :
    (ordered bars).filter Bar.isValid = ordered bars := by
  refine List.filter_eq_self.mpr ?_
  intro bar hbar
  exact (lastAt?_filter_eq_some_iff.mp (mem_ordered.mp hbar)).1

/-- A valid bar is kept, or superseded by a later one of its time. -/
theorem superseded_add_length_ordered (bars : List (Bar α)) :
    superseded (byTime (bars.filter Bar.isValid)) + (ordered bars).length =
      bars.countP Bar.isValid := by
  unfold ordered
  rw [superseded_add_length_lastOfEach, (byTime_perm _).length_eq, List.countP_eq_length_filter]

/-- The last valid bars of the times decide which bars are kept. Every equation between kept bars is
proved through this, so that none has to follow two sorts side by side. -/
theorem ordered_eq_of_lastAt? {bars bars' : List (Bar α)}
    (h : ∀ time, lastAt? (bars.filter Bar.isValid) time = lastAt? (bars'.filter Bar.isValid) time) :
    ordered bars = ordered bars' := by
  refine (chronological_ordered bars).ext (chronological_ordered bars') ?_
  intro time
  rw [lastAt?_ordered, lastAt?_ordered, h]

/-! ## Bars that join

Putting bars in order twice is putting them in order once, also when others have joined in
between. -/

/-- **Bars may be put in order before others join them.** What was dropped would have been dropped
later, since a bar that gives way to one behind it still does. -/
theorem ordered_append_left (bars more : List (Bar α)) :
    ordered (ordered bars ++ more) = ordered (bars ++ more) := by
  refine ordered_eq_of_lastAt? ?_
  intro time
  rw [List.filter_append, List.filter_append, lastAt?_append, lastAt?_append,
    filter_isValid_ordered, lastAt?_ordered]

/-- **Bars may be put in order before they join others.** A bar that gives way among them gives way
among all. -/
theorem ordered_append_right (bars more : List (Bar α)) :
    ordered (bars ++ ordered more) = ordered (bars ++ more) := by
  refine ordered_eq_of_lastAt? ?_
  intro time
  rw [List.filter_append, List.filter_append, lastAt?_append, lastAt?_append,
    filter_isValid_ordered, lastAt?_ordered]

end MarketReplay
