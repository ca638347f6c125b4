import Mathlib.Data.Nat.Digits.Lemmas
import MarketReplay.Calendar.Spelling
import MarketReplay.Proofs.Calendar.Civil
import MarketReplay.Proofs.Decimal.Integer
import MarketReplay.Proofs.Text.Blank

/-!
# Dates and times in fixed width

A date of a year with four digits, and a time of day, written with zeros before short numbers
(`writtenDate`, `writtenClock`). Both readers take such numbers off the front of a text one after
the other (`digits?_padded`), so each of them goes through a date or a time as a whole: the internet
form in `internetInstant?_written`, the plainer forms in `spelled?_dateParts` and
`spelled?_timeParts`. A form whose parts are joined by another sign stops in the date.

Every lemma has the rest of the text as a parameter. A reader hands on what it has not read, and in
this way the lemmas can be put one behind another, as the readers are.
-/

set_option autoImplicit false

namespace MarketReplay.Calendar

open MarketReplay.Decimal (digitsValue)
open MarketReplay.Text (trimStart)

/-! ## Numbers in fixed width

What a padded number is made of, and that it can be read off again. The three readers differ in how
many digits they ask for and whether they skip blanks first. -/

section padded

variable {width n : Nat}

theorem toList_padded (width n : Nat) :
    (padded width n).toList =
      List.replicate (width - n.repr.toList.length) '0' ++ n.repr.toList := by
  rw [padded, String.toList_append, String.toList_ofList, String.length_toList]

theorem isDigit_of_mem_padded {c : Char} (hc : c ∈ (padded width n).toList) :
    c.isDigit = true := by
  rw [toList_padded] at hc
  rcases List.mem_append.mp hc with hc | hc
  · rw [List.eq_of_mem_replicate hc]
    rfl
  · exact Decimal.isDigit_repr hc

theorem digitsValue_padded (width n : Nat) : digitsValue (padded width n).toList = n := by
  have hzeros : ∀ (count : Nat) (digits : List Char),
      digitsValue (List.replicate count '0' ++ digits) = digitsValue digits := by
    intro count digits
    induction count with
    | zero => rfl
    | succ count ih =>
      rw [List.replicate_succ, List.cons_append, ← ih]
      rfl
  rw [toList_padded, hzeros, Decimal.digitsValue_repr]

variable (h : n < 10 ^ width) (hwidth : 0 < width)

include h hwidth

theorem length_padded : (padded width n).toList.length = width := by
  have hle : n.repr.length ≤ width := Nat.repr_length n width hwidth h
  rw [toList_padded, List.length_append, List.length_replicate, String.length_toList]
  omega

theorem exists_padded_eq_cons :
    ∃ c digits, (padded width n).toList = c :: digits ∧ c.isDigit = true := by
  obtain ⟨c, digits, heq⟩ := List.exists_cons_of_length_pos (l := (padded width n).toList)
    (by rwa [length_padded h hwidth])
  exact ⟨c, digits, heq, isDigit_of_mem_padded (heq ▸ List.mem_cons_self)⟩

/-- **A number in fixed width is read off the front of a text.** The reader takes as many digits as
the width at most, so that digits behind the number do no harm. -/
theorem digits?_padded {least : Nat} (hleast : least ≤ width) (rest : List Char) :
    digits? least width ((padded width n).toList ++ rest) = some (n, rest) := by
  have hlength := length_padded h hwidth
  have htaken : (((padded width n).toList ++ rest).takeWhile Char.isDigit).take width =
      (padded width n).toList := by
    rw [List.takeWhile_append_of_pos fun c hc => isDigit_of_mem_padded hc,
      List.take_left' hlength]
  have hnonempty : (padded width n).toList.isEmpty = false := by
    rw [List.isEmpty_eq_false_iff, ← List.length_pos_iff, hlength]
    exact hwidth
  simp only [digits?, htaken, hnonempty, hlength, digitsValue_padded, List.drop_left' hlength]
  rw [if_neg (by simp; omega)]

theorem trimStart_padded (rest : List Char) :
    trimStart ((padded width n).toList ++ rest) = (padded width n).toList ++ rest := by
  obtain ⟨c, digits, heq, hdigit⟩ := exists_padded_eq_cons h hwidth
  refine Text.trimStart_of_head ?_
  intro c' hc'
  rw [heq] at hc'
  cases hc'
  exact Text.isBlank_of_isDigit hdigit

end padded

theorem fourDigits_padded {n : Nat} (h : n < 10000) (rest : List Char) :
    digits? 4 4 ((padded 4 n).toList ++ rest) = some (n, rest) :=
  digits?_padded h (by decide) (by decide) rest

theorem twoDigits_padded {n : Nat} (h : n < 100) (rest : List Char) :
    digits? 2 2 ((padded 2 n).toList ++ rest) = some (n, rest) :=
  digits?_padded h (by decide) (by decide) rest

theorem looseDigits_padded {n : Nat} (h : n < 100) (rest : List Char) :
    digits? 1 2 (trimStart ((padded 2 n).toList ++ rest)) = some (n, rest) := by
  rw [trimStart_padded h (by decide), digits?_padded h (by decide) (by decide)]

theorem year?_padded {n : Nat} (h : n < 10000) (rest : List Char) :
    year? (trimStart ((padded 4 n).toList ++ rest)) = some ((n : Int), rest) := by
  have hread : digits? 1 4 ((padded 4 n).toList ++ rest) = some (n, rest) :=
    digits?_padded h (by decide) (by decide) rest
  obtain ⟨c, digits, heq, hdigit⟩ :
      ∃ c digits, (padded 4 n).toList = c :: digits ∧ c.isDigit = true :=
    exists_padded_eq_cons h (by decide)
  rw [trimStart_padded h (by decide)]
  rw [heq, List.cons_append] at hread ⊢
  -- a year may have a sign in front, and this one begins with a digit
  unfold year?
  split
  · rename_i hminus
    rw [List.cons.injEq] at hminus
    exact absurd (hminus.1 ▸ hdigit) (by decide)
  · rename_i hplus
    rw [List.cons.injEq] at hplus
    exact absurd (hplus.1 ▸ hdigit) (by decide)
  · rw [hread]
    rfl

theorem after?_self (c : Char) (rest : List Char) : after? c (c :: rest) = some rest := if_pos rfl

theorem bind_of_eq_some {β γ : Type} {x : Option β} {b : β} (h : x = some b) {f : β → Option γ} :
    (x >>= f) = f b := by
  rw [h]
  rfl

/-! ## Dates and times

Written dates and clocks, and what the two kinds of readers make of them. -/

/-- A date that exists, in a year from 1 to 9999. These are the years that every form can write;
beyond them a year has a sign or more digits. -/
structure Date.IsCommon (d : Date) : Prop where
  valid : d.isValid = true
  from_one : 1 ≤ d.year
  four_digits : d.year ≤ 9999

/-- The characters of a date with a sign between its numbers. All numbers are padded, so that a date
of one form has one text. -/
def writtenDate (between : Char) (d : Date) : List Char :=
  (padded 4 d.year.toNat).toList ++ between :: ((padded 2 d.month).toList ++
    between :: (padded 2 d.day).toList)

/-- The characters of a time of day to the second. -/
def writtenClock (hour minute second : Nat) : List Char :=
  (padded 2 hour).toList ++ ':' :: ((padded 2 minute).toList ++ ':' :: (padded 2 second).toList)

section read

variable {d : Date} (hd : d.IsCommon) {hour minute second : Nat}

include hd

theorem Date.IsCommon.year_lt : d.year.toNat < 10000 ∧ (d.year.toNat : Int) = d.year := by
  have := hd.from_one
  have := hd.four_digits
  omega

theorem Date.IsCommon.instant? (hhour : hour < 24) (hminute : minute < 60) (hsecond : second < 60)
    (millis : Nat) :
    (Spelled.mk d.year d.month d.day hour minute second millis).instant? =
      some (instantOf d.dayNumber hour minute second millis) := by
  have hyears : firstYear ≤ d.year ∧ d.year ≤ lastYear := by
    have := hd.from_one
    have := hd.four_digits
    unfold firstYear lastYear
    omega
  exact if_pos ⟨hd.valid, hyears.1, hyears.2, hhour, hminute, hsecond.le⟩

/-- The internet form reads a date and a time of day; what follows them decides. The statement keeps
the rest of the reader as it is, since it depends on what comes after the clock. -/
theorem internetInstant?_written (hhour : hour < 24) (hminute : minute < 60) (hsecond : second < 60)
    {mark : Char} (hmark : mark = 'T' ∨ mark = 't' ∨ mark = ' ') (rest : List Char) :
    internetInstant? (writtenDate '-' d ++ mark :: (writtenClock hour minute second ++ rest)) =
      (fraction? rest).bind fun (millis, rest) => (offset? rest).bind fun (offset, rest) =>
        if rest.isEmpty then
          (Spelled.mk d.year d.month d.day hour minute second millis).instant?.bind fun instant =>
            some (instant - 60000 * offset)
        else none := by
  obtain ⟨hyear, hcast⟩ := hd.year_lt
  obtain ⟨hmonth, hday⟩ := Date.lt_hundred hd.valid
  simp only [writtenDate, writtenClock, List.append_assoc, List.cons_append]
  -- one number or sign after the other
  unfold internetInstant?
  rw [bind_of_eq_some (fourDigits_padded hyear _)]
  dsimp only
  rw [bind_of_eq_some (after?_self '-' _), bind_of_eq_some (twoDigits_padded hmonth _)]
  dsimp only
  rw [bind_of_eq_some (after?_self '-' _), bind_of_eq_some (twoDigits_padded hday _)]
  dsimp only
  rw [if_pos hmark, bind_of_eq_some rfl, bind_of_eq_some (twoDigits_padded (by omega) _)]
  dsimp only
  rw [bind_of_eq_some (after?_self ':' _), bind_of_eq_some (twoDigits_padded (by omega) _)]
  dsimp only
  rw [bind_of_eq_some (after?_self ':' _), bind_of_eq_some (twoDigits_padded (by omega) _)]
  dsimp only
  rw [hcast]
  rfl

theorem internetInstant?_writtenDate : internetInstant? (writtenDate '-' d) = none := by
  obtain ⟨hyear, -⟩ := hd.year_lt
  obtain ⟨hmonth, hday⟩ := Date.lt_hundred hd.valid
  have hend : (padded 2 d.day).toList = (padded 2 d.day).toList ++ [] := (List.append_nil _).symm
  rw [writtenDate, hend]
  unfold internetInstant?
  rw [bind_of_eq_some (fourDigits_padded hyear _)]
  dsimp only
  rw [bind_of_eq_some (after?_self '-' _), bind_of_eq_some (twoDigits_padded hmonth _)]
  dsimp only
  rw [bind_of_eq_some (after?_self '-' _), bind_of_eq_some (twoDigits_padded hday _)]
  rfl

/-- A date joined by another sign is not the beginning of the internet form, whatever follows it. -/
theorem internetInstant?_of_ne {between : Char} (hne : between ≠ '-') (rest : List Char) :
    internetInstant? (writtenDate between d ++ rest) = none := by
  obtain ⟨hyear, -⟩ := hd.year_lt
  simp only [writtenDate, List.append_assoc, List.cons_append]
  unfold internetInstant?
  rw [bind_of_eq_some (fourDigits_padded hyear _)]
  dsimp only
  rw [after?, if_neg hne]
  rfl

/-- A plainer form reads a written date, if the same sign joins its numbers. What follows the date
is left to the parts behind. -/
theorem spelled?_dateParts (between : Char) (more : List Part) (s : Spelled) (rest : List Char) :
    spelled? (dateParts between ++ more) s (writtenDate between d ++ rest) =
      spelled? more { s with year := d.year, month := d.month, day := d.day } rest := by
  obtain ⟨hyear, hcast⟩ := hd.year_lt
  obtain ⟨hmonth, hday⟩ := Date.lt_hundred hd.valid
  simp only [dateParts, writtenDate, List.append_assoc, List.cons_append, List.nil_append, spelled?,
    Part.scan, year?_padded hyear, looseDigits_padded hmonth, looseDigits_padded hday, after?_self,
    Option.map_some, hcast]

theorem spelled?_dateParts_of_ne {between other : Char} (hne : other ≠ between)
    (more : List Part) (s : Spelled) (rest : List Char) :
    spelled? (dateParts between ++ more) s (writtenDate other d ++ rest) = none := by
  obtain ⟨hyear, -⟩ := hd.year_lt
  simp only [dateParts, writtenDate, List.append_assoc, List.cons_append, List.nil_append, spelled?,
    Part.scan, year?_padded hyear, after?, if_neg hne, Option.map_some, Option.map_none]

omit hd in
theorem spelled?_timeParts (hhour : hour < 24) (hminute : minute < 60) (hsecond : second < 60)
    (more : List Part) (s : Spelled) (rest : List Char) :
    spelled? (timeParts ++ more) s (writtenClock hour minute second ++ rest) =
      spelled? more { s with hour, minute, second } rest := by
  simp only [timeParts, writtenClock, List.append_assoc, List.cons_append, List.nil_append,
    spelled?, Part.scan, looseDigits_padded (n := hour) (by omega),
    looseDigits_padded (n := minute) (by omega), looseDigits_padded (n := second) (by omega),
    after?_self, Option.map_some]

end read

end MarketReplay.Calendar
