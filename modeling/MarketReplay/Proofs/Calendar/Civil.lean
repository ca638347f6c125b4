import Mathlib.Algebra.BigOperators.Group.List.Basic
import Mathlib.Algebra.GroupWithZero.Nat
import Mathlib.Algebra.Order.BigOperators.Group.List
import MarketReplay.Calendar.Instant

/-!
# Days and dates

The day number of a date is a closed formula, and the way back guesses a year. Here both are tied to
the calendar itself: to go to the next date (`Date.next`), at the end of a month or a year included,
is to go to the next number (`Date.dayNumber_next`), and 1970-01-01 has the number zero. So day
numbers count days.

**The way back is right for every day**, however far from the epoch: the date of a day number exists
and has that number (`Date.ofDayNumber_spec`). The guess of the year is off by one at most because
the days before a year are less than two days away from their average (`daysBeforeYear_near`).
-/

set_option autoImplicit false

namespace MarketReplay.Calendar

/-! ## Months

The lengths of the months as a list. Days before a month are a sum over its front, and a day of the
year is found by going through it. -/

theorem sum_monthLengths (leap : Bool) :
    (monthLengths leap).sum = if leap then 366 else 365 := by
  cases leap <;> rfl

theorem length_monthLengths (leap : Bool) : (monthLengths leap).length = 12 := rfl

theorem monthLengths_bounds {leap : Bool} {length : Nat} (h : length ∈ monthLengths leap) :
    28 ≤ length ∧ length ≤ 31 := by
  cases leap <;> simp [monthLengths] at h <;> omega

theorem daysBeforeMonth_eq_sum (leap : Bool) (month : Nat) :
    daysBeforeMonth leap month = ((monthLengths leap).take (month - 1)).sum :=
  List.sum_eq_foldl.symm

theorem Date.isValid_iff {d : Date} :
    d.isValid = true ↔ ∃ k length, d.month = k + 1 ∧
      (monthLengths (isLeap d.year))[k]? = some length ∧ 1 ≤ d.day ∧ d.day ≤ length := by
  obtain ⟨year, month, day⟩ := d
  cases month with
  | zero => simp [Date.isValid]
  | succ k =>
    cases hlength : (monthLengths (isLeap year))[k]? with
    | none => simp [Date.isValid, hlength]
    | some length => simp [Date.isValid, hlength]

theorem Date.lt_hundred {d : Date} (h : d.isValid = true) : d.month < 100 ∧ d.day < 100 := by
  obtain ⟨k, length, hmonth, hlength, -, hday⟩ := isValid_iff.mp h
  obtain ⟨hk, -⟩ := List.getElem?_eq_some_iff.mp hlength
  have hle := monthLengths_bounds (List.mem_of_getElem? hlength)
  rw [length_monthLengths] at hk
  omega

/-- A day of the year is a day of one of the months, behind all the months before it. The induction
is over the list of lengths, which is why the statement has one, and a month to begin with. -/
theorem monthAndDay_spec {lengths : List Nat} {n : Nat} (h : n < lengths.sum) (month : Nat) :
    ∃ k length, lengths[k]? = some length ∧ (monthAndDay lengths month n).1 = month + k ∧
      1 ≤ (monthAndDay lengths month n).2 ∧ (monthAndDay lengths month n).2 ≤ length ∧
      (lengths.take k).sum + (monthAndDay lengths month n).2 = n + 1 := by
  induction lengths generalizing n month with
  | nil => exact absurd h (Nat.not_lt_zero n)
  | cons length rest ih =>
    rw [List.sum_cons] at h
    -- the day is in the first of the months left, or as many days further on in the others
    by_cases hn : n < length
    · have heq : monthAndDay (length :: rest) month n = (month, n + 1) := by
        rw [monthAndDay, if_pos hn]
      rw [heq]
      exact ⟨0, length, rfl, rfl, Nat.le_add_left 1 n, hn, Nat.zero_add (n + 1)⟩
    · obtain ⟨k, length', hlength', hmonth, hpos, hle, hsum⟩ :=
        ih (n := n - length) (by omega) (month + 1)
      have heq : monthAndDay (length :: rest) month n =
          monthAndDay rest (month + 1) (n - length) := by rw [monthAndDay, if_neg hn]
      rw [heq]
      refine ⟨k + 1, length', hlength', by omega, hpos, hle, ?_⟩
      rw [List.take_succ_cons, List.sum_cons]
      omega

/-! ## Years

Days before a year, by the rule of leap years. The quotients round towards minus infinity, which
makes the rule hold for years before the first as well. -/

theorem daysBeforeYear_eq (year : Int) : daysBeforeYear year =
    365 * (year - 1) + (year - 1) / 4 - (year - 1) / 100 + (year - 1) / 400 := rfl

theorem daysBeforeYear_succ (year : Int) :
    daysBeforeYear (year + 1) = daysBeforeYear year + (monthLengths (isLeap year)).sum := by
  have hleap : isLeap year = true ↔ year % 4 = 0 ∧ (year % 100 ≠ 0 ∨ year % 400 = 0) := by
    simp [isLeap]
  rw [sum_monthLengths, daysBeforeYear_eq, daysBeforeYear_eq]
  split
  · rename_i h
    have := hleap.mp h
    omega
  · rename_i h
    have := mt hleap.mpr h
    omega

/-- The days before a year are less than two days away from their average. A guess by the average is
therefore off by one year at most. -/
theorem daysBeforeYear_near (year : Int) :
    146097 * (year - 1) - 800 < 400 * daysBeforeYear year ∧
      400 * daysBeforeYear year < 146097 * (year - 1) + 800 := by
  rw [daysBeforeYear_eq]
  omega

theorem daysBeforeYear_mono {year later : Int} (h : year ≤ later) :
    daysBeforeYear year ≤ daysBeforeYear later := by
  obtain rfl | hlt := h.eq_or_lt
  · exact le_rfl
  · have hbefore := daysBeforeYear_near year
    have hafter := daysBeforeYear_near later
    omega

/-- The year of a day is the one that has begun and not ended. The guess may be a year too low or
too high and is then corrected; it is never further off. -/
theorem daysBeforeYear_yearOfDay (n : Int) :
    daysBeforeYear (yearOfDay n) ≤ n ∧ n < daysBeforeYear (yearOfDay n + 1) := by
  have hbefore := daysBeforeYear_near (400 * n / 146097 + 1 - 1)
  have hafter := daysBeforeYear_near (400 * n / 146097 + 1 + 1 + 1)
  simp only [yearOfDay]
  split
  · rw [Int.sub_add_cancel]
    omega
  · split <;> omega

/-! ## The way back

From a day number to its date: the year first, then the month by going through the lengths. -/

theorem Date.dayNumber_eq {d : Date} {k : Nat} (hmonth : d.month = k + 1) :
    d.dayNumber = daysBeforeYear d.year + ((monthLengths (isLeap d.year)).take k).sum +
      (d.day - 1) - epochOffset := by
  rw [Date.dayNumber, daysBeforeMonth_eq_sum, hmonth, Nat.add_sub_cancel]

/-- **The date of a day number exists and has that number.** Since different dates have different
numbers, it is the only one that has it. -/
theorem Date.ofDayNumber_spec (days : Int) :
    (Date.ofDayNumber days).isValid = true ∧ (Date.ofDayNumber days).dayNumber = days := by
  obtain ⟨hfrom, hto⟩ := daysBeforeYear_yearOfDay (days + epochOffset)
  rw [daysBeforeYear_succ] at hto
  have hday : (days + epochOffset - daysBeforeYear (yearOfDay (days + epochOffset))).toNat <
      (monthLengths (isLeap (yearOfDay (days + epochOffset)))).sum := by omega
  obtain ⟨k, length, hlength, hmonth, hpos, hle, hsum⟩ := monthAndDay_spec hday 1
  have hmonth' : (Date.ofDayNumber days).month = k + 1 := hmonth.trans (Nat.add_comm 1 k)
  refine ⟨isValid_iff.mpr ⟨k, length, hmonth', hlength, hpos, hle⟩, ?_⟩
  rw [dayNumber_eq hmonth']
  simp only [Date.ofDayNumber] at *
  omega

theorem Date.year_ofDayNumber {first last days : Int} (hfrom : Date.dayNumber ⟨first, 1, 1⟩ ≤ days)
    (hto : days < Date.dayNumber ⟨last, 1, 1⟩) :
    first ≤ (Date.ofDayNumber days).year ∧ (Date.ofDayNumber days).year < last := by
  have hfirstDay (year : Int) :
      Date.dayNumber ⟨year, 1, 1⟩ = daysBeforeYear year - epochOffset := by
    rw [dayNumber_eq (k := 0) rfl]
    simp
  have hyear : (Date.ofDayNumber days).year = yearOfDay (days + epochOffset) := rfl
  obtain ⟨hbegun, hnotEnded⟩ := daysBeforeYear_yearOfDay (days + epochOffset)
  rw [hfirstDay] at hfrom hto
  rw [hyear]
  constructor
  · -- a year that has ended begins before its end, and days before years only grow
    by_contra! hbefore
    have := daysBeforeYear_mono (Int.add_one_le_iff.mpr hbefore)
    omega
  · by_contra! hafter
    have := daysBeforeYear_mono hafter
    omega

/-! ## The next date

What makes day numbers a count of days. Together with the number of the epoch this determines them
for every date. -/

/-- The date after a date: the next day if the month has it, or else the first of the next month. It
is the calendar as one knows it, without any arithmetic of days. -/
def Date.next (d : Date) : Date :=
  if { d with day := d.day + 1 : Date }.isValid then { d with day := d.day + 1 }
  else if d.month < 12 then ⟨d.year, d.month + 1, 1⟩
  else ⟨d.year + 1, 1, 1⟩

/-- **Day numbers count days**: the next date exists, and has the next number. The three cases are a
day within a month, the end of a month and the end of a year. -/
theorem Date.dayNumber_next {d : Date} (h : d.isValid = true) :
    d.next.isValid = true ∧ d.next.dayNumber = d.dayNumber + 1 := by
  obtain ⟨k, length, hmonth, hlength, hpos, hle⟩ := isValid_iff.mp h
  obtain ⟨hk, -⟩ := List.getElem?_eq_some_iff.mp hlength
  rw [length_monthLengths] at hk
  unfold Date.next
  split
  · rename_i hsame
    refine ⟨hsame, ?_⟩
    rw [dayNumber_eq hmonth, dayNumber_eq (d := { d with day := d.day + 1 }) hmonth]
    push_cast
    omega
  · rename_i hlast
    -- the month ends with this day
    have hend : d.day = length := by
      have hnot : ¬d.day + 1 ≤ length := fun hnext =>
        hlast (isValid_iff.mpr ⟨k, length, hmonth, hlength, by simp, hnext⟩)
      omega
    have hmonths : ((monthLengths (isLeap d.year)).take (k + 1)).sum =
        ((monthLengths (isLeap d.year)).take k).sum + length := by
      rw [List.take_add_one, hlength, List.sum_append]
      simp
    split
    · rename_i hbefore
      have hk' : k + 1 < (monthLengths (isLeap d.year)).length := by
        rw [length_monthLengths]
        omega
      have hfirst := monthLengths_bounds (List.getElem_mem hk')
      refine ⟨isValid_iff.mpr ⟨k + 1, _, congrArg (· + 1) hmonth, List.getElem?_eq_getElem hk',
        Nat.le_refl 1, (show 1 ≤ 28 by decide).trans hfirst.1⟩, ?_⟩
      rw [dayNumber_eq hmonth, dayNumber_eq (k := k + 1) (congrArg (· + 1) hmonth), hmonths, hend]
      push_cast
      omega
    · have hyear : (monthLengths (isLeap d.year)).take (k + 1) = monthLengths (isLeap d.year) := by
        refine List.take_of_length_le ?_
        rw [length_monthLengths]
        omega
      refine ⟨isValid_iff.mpr ⟨0, 31, rfl, rfl, Nat.le_refl 1, show 1 ≤ 31 by decide⟩, ?_⟩
      rw [hyear] at hmonths
      rw [dayNumber_eq hmonth, dayNumber_eq (k := 0) rfl, daysBeforeYear_succ, hmonths, hend]
      simp only [List.take_zero, List.sum_nil]
      push_cast
      omega

theorem Date.dayNumber_epoch : Date.dayNumber ⟨1970, 1, 1⟩ = 0 := by decide

end MarketReplay.Calendar
