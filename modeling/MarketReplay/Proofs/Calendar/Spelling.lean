import MarketReplay.Proofs.Calendar.Written

/-!
# All spellings of an instant agree

A timestamp is tried as a number, then in the internet form, then in the plainer forms one after the
other, and the first that fits decides. For a date in a year of four digits `instant?_hyphened` and
`instant?_slashed` say which of them are left, and each spelling is then followed through: the forms
that refuse what comes after the date, and what the form that takes it reads.

**They all name the milliseconds from the epoch to that date and time** (`spellings_agree`), and the
text that is written for an instant names that instant again (`instant?_instantText`). What a date
is worth is pinned down by the calendar: the epoch has day number zero, and the next date the next
number.
-/

set_option autoImplicit false

namespace MarketReplay.Calendar

open MarketReplay.Decimal (readInt? readInt64? spanSign)
open MarketReplay.Text (isBlank trim trimStart)

/-! ## Characters that are no blanks

A text is trimmed before it is read. What is written here begins and ends with characters that are
no blanks, so that trimming leaves it alone. -/

theorem isBlank_of_mem_padded {width n : Nat} {c : Char} (hc : c ∈ (padded width n).toList) :
    isBlank c = false :=
  Text.isBlank_of_isDigit (isDigit_of_mem_padded hc)

theorem isBlank_of_mem_writtenDate {between : Char} (hbetween : isBlank between = false) {d : Date}
    {c : Char} (hc : c ∈ writtenDate between d) : isBlank c = false := by
  simp only [writtenDate, List.mem_append, List.mem_cons] at hc
  rcases hc with hc | rfl | hc | rfl | hc
  · exact isBlank_of_mem_padded hc
  · exact hbetween
  · exact isBlank_of_mem_padded hc
  · exact hbetween
  · exact isBlank_of_mem_padded hc

theorem isBlank_of_mem_writtenClock {hour minute second : Nat} {c : Char}
    (hc : c ∈ writtenClock hour minute second) : isBlank c = false := by
  simp only [writtenClock, List.mem_append, List.mem_cons] at hc
  rcases hc with hc | rfl | hc | rfl | hc
  · exact isBlank_of_mem_padded hc
  · rfl
  · exact isBlank_of_mem_padded hc
  · rfl
  · exact isBlank_of_mem_padded hc

/-- A clock ends in no blank, whatever stands before it and whatever plain text behind it. Trimming
leaves such a text as it is. -/
theorem isBlank_of_mem_getLast? {mark : Char} {hour minute second : Nat} {rest : List Char}
    (hrest : ∀ c ∈ rest, isBlank c = false) :
    ∀ c ∈ (mark :: (writtenClock hour minute second ++ rest)).getLast?, isBlank c = false := by
  intro c hc
  have hne : writtenClock hour minute second ++ rest ≠ [] := by simp [writtenClock]
  obtain ⟨x, xs, heq⟩ := List.exists_cons_of_ne_nil hne
  rw [heq, List.getLast?_cons_cons, ← heq] at hc
  rcases List.mem_append.mp (List.mem_of_getLast? hc) with hc | hc
  · exact isBlank_of_mem_writtenClock hc
  · exact hrest c hc

/-! ## Milliseconds and offsets

What may stand behind a clock in the internet form, and how much of it is read as a fraction. -/

/-- The characters of milliseconds; none are written for none, as in the text of an instant. -/
def writtenMillis (millis : Nat) : List Char :=
  if millis = 0 then [] else '.' :: (padded 3 millis).toList

/-- The characters of an offset from UTC. -/
def writtenOffset (sign : Char) (hours minutes : Nat) : List Char :=
  sign :: ((padded 2 hours).toList ++ ':' :: (padded 2 minutes).toList)

/-- A text that names an offset and can follow a clock. It begins with neither a digit nor a point,
so that a fraction ends where it begins. -/
structure IsZone (zone : List Char) (offset : Int) : Prop where
  read : offset? zone = some (offset, [])
  head : ∃ c more, zone = c :: more ∧ c ≠ '.' ∧ c.isDigit = false
  plain : ∀ c ∈ zone, isBlank c = false

theorem isZone_utc : IsZone ['Z'] 0 where
  read := rfl
  head := ⟨'Z', [], rfl, by decide, by decide⟩
  plain := List.forall_mem_singleton.mpr rfl

theorem isZone_writtenOffset {sign : Char} (hsign : sign = '+' ∨ sign = '-') {hours minutes : Nat}
    (hhours : hours < 24) (hminutes : minutes < 60) :
    IsZone (writtenOffset sign hours minutes)
      (if sign = '+' then 60 * hours + minutes else -(60 * hours + minutes)) where
  read := by
    have htwo : (padded 2 minutes).toList = (padded 2 minutes).toList ++ [] :=
      (List.append_nil _).symm
    -- a sign is no letter for UTC, so that the numbers behind it are read
    have hsigned : ¬(sign = 'Z' ∨ sign = 'z') ∧
        (sign = '+' ∨ sign = '-' ∨ sign.toNat = 0x2212) := by
      rcases hsign with rfl | rfl <;> decide
    rw [writtenOffset, htwo, offset?, if_neg hsigned.1, if_pos hsigned.2,
      bind_of_eq_some (twoDigits_padded (by omega) _)]
    dsimp only
    rw [bind_of_eq_some (after?_self ':' _), bind_of_eq_some (twoDigits_padded (by omega) _)]
    exact if_pos ⟨hhours, hminutes⟩
  head := by
    refine ⟨sign, _, rfl, ?_⟩
    rcases hsign with rfl | rfl <;> decide
  plain := by
    intro c hc
    simp only [writtenOffset, List.mem_append, List.mem_cons] at hc
    rcases hc with rfl | hc | rfl | hc
    · rcases hsign with rfl | rfl <;> rfl
    · exact isBlank_of_mem_padded hc
    · rfl
    · exact isBlank_of_mem_padded hc

/-- The offset of the text that is written for an instant. -/
theorem isZone_zero : IsZone ['+', '0', '0', ':', '0', '0'] 0 := by
  have hwritten : writtenOffset '+' 0 0 = ['+', '0', '0', ':', '0', '0'] := by decide
  rw [← hwritten]
  exact isZone_writtenOffset (.inl rfl) (by decide) (by decide)

theorem isBlank_of_mem_writtenMillis {millis : Nat} {c : Char} (hc : c ∈ writtenMillis millis) :
    isBlank c = false := by
  unfold writtenMillis at hc
  split at hc
  · cases hc
  · rcases List.mem_cons.mp hc with rfl | hc
    · rfl
    · exact isBlank_of_mem_padded hc

theorem fraction?_written {millis : Nat} (hmillis : millis < 1000) {zone : List Char} {offset : Int}
    (hzone : IsZone zone offset) :
    fraction? (writtenMillis millis ++ zone) = some (millis, zone) := by
  obtain ⟨c, more, rfl, hpoint, hdigit⟩ := hzone.head
  unfold writtenMillis
  split
  · rename_i hnone
    rw [hnone, List.nil_append]
    unfold fraction?
    split
    · rename_i heq
      exact absurd (List.cons.inj heq).1 hpoint
    · rfl
  · have hall : ∀ c ∈ (padded 3 millis).toList, c.isDigit = true := fun c => isDigit_of_mem_padded
    have hlength : (padded 3 millis).toList.length = 3 := length_padded hmillis (by decide)
    -- the digits end where the offset begins
    have hspan : Decimal.spanDigits ((padded 3 millis).toList ++ c :: more) =
        ((padded 3 millis).toList, c :: more) := by
      rw [Decimal.spanDigits, List.takeWhile_append_of_pos hall, List.dropWhile_append_of_pos hall,
        List.takeWhile_cons_of_neg (by simp [hdigit]),
        List.dropWhile_cons_of_neg (by simp [hdigit]), List.append_nil]
    have hvalue : millisOf (padded 3 millis).toList = millis := by
      rw [millisOf, List.take_left' hlength, digitsValue_padded]
    rw [List.cons_append, fraction?, hspan]
    split
    · rename_i hnone
      rw [Prod.mk.injEq] at hnone
      rw [hnone.1] at hlength
      cases hlength
    · rename_i heq
      rw [Prod.mk.injEq] at heq
      rw [← heq.1, ← heq.2, hvalue]

/-! ## The order of the forms

Which reader gets a text. A date is no number, and the sign between its numbers leaves only some of
the forms; what follows the date decides among these. -/

section order

variable {d : Date} (hd : d.IsCommon)

include hd

theorem exists_writtenDate_eq_cons (between : Char) :
    ∃ c more, writtenDate between d = c :: more ∧ c.isDigit = true := by
  obtain ⟨c, digits, heq, hdigit⟩ :
      ∃ c digits, (padded 4 d.year.toNat).toList = c :: digits ∧ c.isDigit = true :=
    exists_padded_eq_cons hd.year_lt.1 (by decide)
  exact ⟨c, _, by rw [writtenDate, heq, List.cons_append], hdigit⟩

/-- A date is no number, because of the signs in it. This comes first, since an integer is never
looked at as a date. -/
theorem readInt64?_written {between : Char} (hbetween : between.isDigit = false)
    (rest : List Char) : readInt64? (writtenDate between d ++ rest) = none := by
  obtain ⟨c, more, heq, hdigit⟩ := exists_writtenDate_eq_cons hd between
  have hsign : spanSign (writtenDate between d ++ rest) =
      (false, writtenDate between d ++ rest) := by
    rw [heq]
    exact Decimal.spanSign_of_head (by rintro _ ⟨⟩; exact hdigit)
  have hall : (writtenDate between d ++ rest).all Char.isDigit = false := by
    refine List.all_eq_false.mpr ⟨between, ?_, by simp [hbetween]⟩
    simp [writtenDate]
  unfold readInt64? readInt?
  simp only [hsign, hall, Bool.not_false, Bool.or_true, Bool.true_or, if_true]

/-- A written date is tried in the internet form and then in the plainer ones. -/
theorem instant?_written {between : Char} (hbetween : between = '-' ∨ between = '/')
    {rest : List Char} (hrest : ∀ c ∈ rest.getLast?, isBlank c = false) :
    instant? (writtenDate between d ++ rest) =
      (internetInstant? (writtenDate between d ++ rest)).or
        ((dateTimeForms ++ dateForms).findSome?
          (formInstant? (writtenDate between d ++ rest))) := by
  obtain ⟨hdigit, hblank⟩ : between.isDigit = false ∧ isBlank between = false := by
    rcases hbetween with rfl | rfl <;> decide
  have htrim : trim (writtenDate between d ++ rest) = writtenDate between d ++ rest := by
    -- a digit in front, and at the end whatever the rest ends with, or the date
    refine Text.trim_of_ends ?_ ?_
    · obtain ⟨c, more, heq, hdigit⟩ := exists_writtenDate_eq_cons hd between
      rw [heq]
      rintro _ ⟨⟩
      exact Text.isBlank_of_isDigit hdigit
    · intro c hc
      rw [List.getLast?_append, Option.mem_def, Option.or_eq_some_iff] at hc
      rcases hc with hc | ⟨-, hc⟩
      · exact hrest c hc
      · exact isBlank_of_mem_writtenDate hblank (List.mem_of_getLast? hc)
  rw [instant?, htrim, trimmedInstant?, readInt64?_written hd hdigit]
  dsimp only
  cases internetInstant? (writtenDate between d ++ rest) with
  | none => rw [Option.none_or]
  | some instant => rw [Option.some_or]

/-- What the rest of a text spells in the rest of a form, after a date. Every plainer form begins
with a date, so that all of them can be compared from there on. -/
def restInstant? (d : Date) (parts : List Part) (rest : List Char) : Option Int :=
  (spelled? parts ⟨d.year, d.month, d.day, 0, 0, 0, 0⟩ rest).bind Spelled.instant?

theorem formInstant?_dateParts (between : Char) (more : List Part) (rest : List Char) :
    formInstant? (writtenDate between d ++ rest) (dateParts between ++ more) =
      restInstant? d more rest := by
  rw [formInstant?, spelled?_dateParts hd]
  rfl

theorem formInstant?_dateParts_of_ne {between other : Char} (hne : other ≠ between)
    (more : List Part) (rest : List Char) :
    formInstant? (writtenDate other d ++ rest) (dateParts between ++ more) = none := by
  rw [formInstant?, spelled?_dateParts_of_ne hd hne, Option.bind_none]

omit hd in
theorem forms_eq : dateTimeForms ++ dateForms =
    [dateParts '-' ++ .blanks :: timeParts, dateParts '-' ++ .sign 'T' :: timeParts,
      dateParts '-' ++ .blanks :: (timeParts ++ [.fraction]), dateParts '/' ++ .blanks :: timeParts,
      dateParts '-' ++ [], dateParts '/' ++ []] := rfl

omit hd in
theorem findSome?_cons_or {β γ : Type} (f : β → Option γ) (x : β) (xs : List β) :
    (x :: xs).findSome? f = (f x).or (xs.findSome? f) := by
  rw [List.findSome?_cons]
  cases f x <;> rfl

/-- After a date with hyphens comes the rest of the internet form, or a time of day behind blanks or
a `T`, or nothing. They are tried in this order, and the first that reads the text decides. -/
theorem instant?_hyphened {rest : List Char} (hrest : ∀ c ∈ rest.getLast?, isBlank c = false) :
    instant? (writtenDate '-' d ++ rest) =
      (internetInstant? (writtenDate '-' d ++ rest)).or
        ((restInstant? d (.blanks :: timeParts) rest).or
          ((restInstant? d (.sign 'T' :: timeParts) rest).or
            ((restInstant? d (.blanks :: (timeParts ++ [.fraction])) rest).or
              (restInstant? d [] rest)))) := by
  rw [instant?_written hd (.inl rfl) hrest, forms_eq]
  simp only [findSome?_cons_or, formInstant?_dateParts hd,
    formInstant?_dateParts_of_ne hd (show '-' ≠ '/' by decide), List.findSome?_nil, Option.or_none,
    Option.none_or]

theorem instant?_slashed {rest : List Char} (hrest : ∀ c ∈ rest.getLast?, isBlank c = false) :
    instant? (writtenDate '/' d ++ rest) =
      (restInstant? d (.blanks :: timeParts) rest).or (restInstant? d [] rest) := by
  rw [instant?_written hd (.inr rfl) hrest, forms_eq,
    internetInstant?_of_ne hd (show '/' ≠ '-' by decide)]
  simp only [findSome?_cons_or, formInstant?_dateParts hd,
    formInstant?_dateParts_of_ne hd (show '/' ≠ '-' by decide), List.findSome?_nil, Option.or_none,
    Option.none_or]

end order

/-! ## Each spelling

For each of the spellings: the forms tried before its own refuse it, and its own reads what was
written. -/

/-- No time of day is read at the end of a text or from a `T` on. -/
theorem restInstant?_blanks {rest : List Char} (hrest : rest = [] ∨ rest.head? = some 'T')
    (d : Date) (more : List Part) :
    restInstant? d (.blanks :: (timeParts ++ more)) rest = none := by
  rcases hrest with rfl | hT
  · rfl
  · obtain ⟨rest, rfl⟩ := List.head?_eq_some_iff.mp hT
    rfl

section spellings

variable {d : Date} (hd : d.IsCommon)

include hd

theorem restInstant?_nil : restInstant? d [] [] = some (instantOf d.dayNumber 0 0 0 0) :=
  hd.instant? (by decide) (by decide) (by decide) 0

theorem instant?_hyphenedDate :
    instant? (writtenDate '-' d) = some (instantOf d.dayNumber 0 0 0 0) := by
  have hend : ∀ c ∈ ([] : List Char).getLast?, isBlank c = false := nofun
  have hinstant := instant?_hyphened hd hend
  rw [List.append_nil, internetInstant?_writtenDate hd, restInstant?_nil hd] at hinstant
  exact hinstant

theorem instant?_slashedDate :
    instant? (writtenDate '/' d) = some (instantOf d.dayNumber 0 0 0 0) := by
  have hend : ∀ c ∈ ([] : List Char).getLast?, isBlank c = false := nofun
  have hinstant := instant?_slashed hd hend
  rw [List.append_nil, restInstant?_nil hd] at hinstant
  exact hinstant

variable {hour minute second : Nat} (hhour : hour < 24) (hminute : minute < 60)
  (hsecond : second < 60)

include hhour hminute hsecond

theorem restInstant?_clock :
    restInstant? d (.blanks :: timeParts) (' ' :: writtenClock hour minute second) =
        some (instantOf d.dayNumber hour minute second 0) ∧
      restInstant? d (.sign 'T' :: timeParts) ('T' :: writtenClock hour minute second) =
        some (instantOf d.dayNumber hour minute second 0) := by
  -- the form ends with the clock, and nothing follows either
  have hclock (s : Spelled) : spelled? timeParts s (writtenClock hour minute second) =
      some { s with hour, minute, second } := by
    have := spelled?_timeParts hhour hminute hsecond [] s []
    rwa [List.append_nil, List.append_nil] at this
  have hblank : trimStart (' ' :: writtenClock hour minute second) =
      writtenClock hour minute second := by
    have hspace : ∀ c ∈ [' '], isBlank c = true := List.forall_mem_singleton.mpr rfl
    rw [← List.singleton_append, Text.trimStart_append hspace, writtenClock,
      trimStart_padded (by omega) (by decide)]
  have hdate := hd.instant? hhour hminute hsecond 0
  constructor
  · rw [restInstant?, spelled?]
    simp only [Part.scan, hblank, hclock, Option.bind_some, hdate]
  · rw [restInstant?, spelled?]
    simp only [Part.scan, after?_self, Option.map_some, hclock, Option.bind_some, hdate]

theorem internetInstant?_unzoned {mark : Char} (hmark : mark = 'T' ∨ mark = 't' ∨ mark = ' ') :
    internetInstant? (writtenDate '-' d ++ mark :: writtenClock hour minute second) = none := by
  have := internetInstant?_written hd hhour hminute hsecond hmark []
  rwa [List.append_nil] at this

theorem instant?_clock :
    instant? (writtenDate '-' d ++ ' ' :: writtenClock hour minute second) =
        some (instantOf d.dayNumber hour minute second 0) ∧
      instant? (writtenDate '-' d ++ 'T' :: writtenClock hour minute second) =
        some (instantOf d.dayNumber hour minute second 0) ∧
      instant? (writtenDate '/' d ++ ' ' :: writtenClock hour minute second) =
        some (instantOf d.dayNumber hour minute second 0) := by
  -- a clock has no blank at its end, so that nothing is trimmed off
  have hlast (mark : Char) :
      ∀ c ∈ (mark :: writtenClock hour minute second).getLast?, isBlank c = false := by
    rw [← List.append_nil (writtenClock hour minute second)]
    exact isBlank_of_mem_getLast? nofun
  obtain ⟨hblank, hT⟩ := restInstant?_clock hd hhour hminute hsecond
  -- with a `T` the form with blanks has been tried before, and stops there
  have hnone : restInstant? d (.blanks :: timeParts) ('T' :: writtenClock hour minute second) =
      none := restInstant?_blanks (.inr rfl) d []
  have hunzoned (mark : Char) (hmark : mark = 'T' ∨ mark = 't' ∨ mark = ' ') :=
    internetInstant?_unzoned hd hhour hminute hsecond hmark
  refine ⟨?_, ?_, ?_⟩
  · rw [instant?_hyphened hd (hlast ' '), hunzoned ' ' (by simp), hblank, Option.none_or,
      Option.some_or]
  · rw [instant?_hyphened hd (hlast 'T'), hunzoned 'T' (by simp), hnone, hT, Option.none_or,
      Option.none_or, Option.some_or]
  · rw [instant?_slashed hd (hlast ' '), hblank, Option.some_or]

theorem instant?_internet {millis : Nat} (hmillis : millis < 1000) {zone : List Char} {offset : Int}
    (hzone : IsZone zone offset) :
    instant? (writtenDate '-' d ++
        'T' :: (writtenClock hour minute second ++ (writtenMillis millis ++ zone))) =
      some (instantOf d.dayNumber hour minute second millis - 60000 * offset) := by
  have hrest : ∀ c ∈ writtenMillis millis ++ zone, isBlank c = false := by
    intro c hc
    rcases List.mem_append.mp hc with hc | hc
    · exact isBlank_of_mem_writtenMillis hc
    · exact hzone.plain c hc
  -- the internet form reads all of it, and it is tried before the plainer ones
  have hinternet : internetInstant? (writtenDate '-' d ++
        'T' :: (writtenClock hour minute second ++ (writtenMillis millis ++ zone))) =
      some (instantOf d.dayNumber hour minute second millis - 60000 * offset) := by
    rw [internetInstant?_written hd hhour hminute hsecond (.inl rfl),
      fraction?_written hmillis hzone]
    simp only [Option.bind_some, hzone.read, List.isEmpty_nil, if_true,
      hd.instant? hhour hminute hsecond millis]
  rw [instant?_hyphened hd (isBlank_of_mem_getLast? hrest), hinternet, Option.some_or]

end spellings

/-! ## The text of an instant

The way back. An instant is cut into a day and a time of day, the day becomes a date, and what is
written of the two is one of the spellings above. -/

theorem timeOfDay_spec (instant : Int) :
    ((timeOfDay instant).hour < 24 ∧ (timeOfDay instant).minute < 60 ∧
      (timeOfDay instant).second < 60 ∧ (timeOfDay instant).millis < 1000) ∧
    instantOf (instant / dayMillis) (timeOfDay instant).hour (timeOfDay instant).minute
      (timeOfDay instant).second (timeOfDay instant).millis = instant := by
  simp only [timeOfDay, instantOf, dayMillis]
  omega

/-- The milliseconds from the first day of year 1 up to year 10000 are those of dates in the years
from 1 to 9999. Instants between two seconds and before the epoch are among them. -/
theorem exists_dateOf?_eq {instant : Int}
    (hfrom : instantOf (Date.dayNumber ⟨1, 1, 1⟩) 0 0 0 0 ≤ instant)
    (hto : instant < instantOf (Date.dayNumber ⟨10000, 1, 1⟩) 0 0 0 0) :
    ∃ d, dateOf? instant = some d ∧ d.IsCommon ∧ d.dayNumber = instant / dayMillis := by
  have hyear : 1 ≤ (Date.ofDayNumber (instant / dayMillis)).year ∧
      (Date.ofDayNumber (instant / dayMillis)).year < 10000 := by
    simp only [instantOf] at hfrom hto
    refine Date.year_ofDayNumber ?_ ?_ <;> unfold dayMillis <;> omega
  have hkept : firstYear ≤ (Date.ofDayNumber (instant / dayMillis)).year ∧
      (Date.ofDayNumber (instant / dayMillis)).year ≤ lastYear := by
    unfold firstYear lastYear
    omega
  obtain ⟨hvalid, hnumber⟩ := Date.ofDayNumber_spec (instant / dayMillis)
  exact ⟨_, if_pos hkept, ⟨hvalid, hyear.1, by omega⟩, hnumber⟩

/-- The text of an instant in a year of four digits is a date and a time of day in the internet
form. -/
theorem toList_instantText? {instant : Int} {d : Date} (hdate : dateOf? instant = some d)
    (hd : d.IsCommon) :
    (instantText? instant).map String.toList =
      some (writtenDate '-' d ++ 'T' :: (writtenClock (timeOfDay instant).hour
        (timeOfDay instant).minute (timeOfDay instant).second ++
          (writtenMillis (timeOfDay instant).millis ++ ['+', '0', '0', ':', '0', '0']))) := by
  have hyear : yearText d.year = padded 4 d.year.toNat :=
    if_pos ⟨Int.le_trans (by decide) hd.from_one, hd.four_digits⟩
  rw [instantText?, hdate, Option.map_some, Option.map_some]
  simp only [dateText, hyear, writtenDate, writtenClock, writtenMillis, String.toList_append]
  split
  · simp
  · simp

/-- **The text of an instant names it.** The years are those of four digits; the text is in the
internet form, with the offset of UTC. -/
theorem instant?_instantText {instant : Int}
    (hfrom : instantOf (Date.dayNumber ⟨1, 1, 1⟩) 0 0 0 0 ≤ instant)
    (hto : instant < instantOf (Date.dayNumber ⟨10000, 1, 1⟩) 0 0 0 0) :
    ∃ text, instantText? instant = some text ∧ instant? text.toList = some instant := by
  obtain ⟨d, hdate, hd, hnumber⟩ := exists_dateOf?_eq hfrom hto
  obtain ⟨⟨hhour, hminute, hsecond, hmillis⟩, hinstant⟩ := timeOfDay_spec instant
  obtain ⟨text, htext, hwritten⟩ := Option.map_eq_some_iff.mp (toList_instantText? hdate hd)
  refine ⟨text, htext, ?_⟩
  rw [hwritten, instant?_internet hd hhour hminute hsecond hmillis isZone_zero, hnumber, hinstant,
    Int.mul_zero, Int.sub_zero]

/-- **All spellings of an instant agree.** A date in a year from 1 to 9999 and a time of day name
the milliseconds from the epoch, whether a blank or a `T` joins them, with hyphens or slashes, as
UTC or with an offset from it, and the date alone names its midnight. Blanks around a spelling do
not count. An instant in those years, before 1970 or between two seconds as well, is named by its
own text. Day numbers count the days from 1970-01-01. -/
theorem spellings_agree :
    (∀ (d : Date) (hour minute second : Nat), d.isValid = true → 1 ≤ d.year → d.year ≤ 9999 →
      hour < 24 → minute < 60 → second < 60 →
      let clock := writtenClock hour minute second
      let t : Int := 1000 * (86400 * d.dayNumber + 3600 * hour + 60 * minute + second)
      instant? (writtenDate '-' d ++ ' ' :: clock) = some t ∧
      instant? (writtenDate '-' d ++ 'T' :: clock) = some t ∧
      instant? (writtenDate '/' d ++ ' ' :: clock) = some t ∧
      instant? (writtenDate '-' d ++ 'T' :: (clock ++ ['Z'])) = some t ∧
      ∀ hours minutes : Nat, hours < 24 → minutes < 60 →
        instant? (writtenDate '-' d ++ 'T' :: (clock ++ writtenOffset '+' hours minutes)) =
          some (t - 60000 * (60 * hours + minutes)) ∧
        instant? (writtenDate '-' d ++ 'T' :: (clock ++ writtenOffset '-' hours minutes)) =
          some (t + 60000 * (60 * hours + minutes))) ∧
    (∀ d : Date, d.isValid = true → 1 ≤ d.year → d.year ≤ 9999 →
      instant? (writtenDate '-' d) = some (1000 * (86400 * d.dayNumber)) ∧
      instant? (writtenDate '/' d) = some (1000 * (86400 * d.dayNumber))) ∧
    (∀ before text after : List Char, (∀ c ∈ before, isBlank c = true) →
      (∀ c ∈ after, isBlank c = true) → instant? (before ++ text ++ after) = instant? text) ∧
    (∀ instant, instantOf (Date.dayNumber ⟨1, 1, 1⟩) 0 0 0 0 ≤ instant →
      instant < instantOf (Date.dayNumber ⟨10000, 1, 1⟩) 0 0 0 0 →
      ∃ text, instantText? instant = some text ∧ instant? text.toList = some instant) ∧
    Date.dayNumber ⟨1970, 1, 1⟩ = 0 ∧
    ∀ d : Date, d.isValid = true → d.next.isValid = true ∧ d.next.dayNumber = d.dayNumber + 1 := by
  refine ⟨?_, ?_, ?_, fun _ => instant?_instantText, Date.dayNumber_epoch,
    fun _ => Date.dayNumber_next⟩
  · intro d hour minute second hvalid hfrom hto hhour hminute hsecond clock t
    have hd : d.IsCommon := ⟨hvalid, hfrom, hto⟩
    have ht : instantOf d.dayNumber hour minute second 0 = t := Int.add_zero t
    obtain ⟨hblank, hT, hslash⟩ := instant?_clock hd hhour hminute hsecond
    -- UTC and both offsets are zones behind a clock without milliseconds
    have hzoned : ∀ {zone : List Char} {offset : Int}, IsZone zone offset →
        instant? (writtenDate '-' d ++ 'T' :: (clock ++ zone)) = some (t - 60000 * offset) := by
      intro zone offset hzone
      rw [← ht]
      exact instant?_internet hd hhour hminute hsecond (show 0 < 1000 by decide) hzone
    rw [ht] at hblank hT hslash
    refine ⟨hblank, hT, hslash, ?_, ?_⟩
    · rw [hzoned isZone_utc, Int.mul_zero, Int.sub_zero]
    · intro hours minutes hhours hminutes
      refine ⟨hzoned (isZone_writtenOffset (.inl rfl) hhours hminutes), ?_⟩
      rw [hzoned (isZone_writtenOffset (.inr rfl) hhours hminutes), if_neg (by decide),
        Int.mul_neg, Int.sub_neg]
  · intro d hvalid hfrom hto
    have hd : d.IsCommon := ⟨hvalid, hfrom, hto⟩
    have hmidnight : instantOf d.dayNumber 0 0 0 0 = 1000 * (86400 * d.dayNumber) := by
      simp [instantOf]
    rw [instant?_hyphenedDate hd, instant?_slashedDate hd, hmidnight]
    exact ⟨rfl, rfl⟩
  · intro before text after hbefore hafter
    rw [instant?, Text.trim_append hbefore text hafter, instant?]

/-- The last second of a leap day behind UTC, the day alone between blanks, and the millisecond
before the epoch. -/
theorem spellings_agree_sample :
    (Date.isValid ⟨2024, 2, 29⟩ = true ∧ instantOf (Date.dayNumber ⟨1, 1, 1⟩) 0 0 0 0 ≤ -1 ∧
        -1 < instantOf (Date.dayNumber ⟨10000, 1, 1⟩) 0 0 0 0) ∧
      instant? "2024-02-29T23:59:59-03:30".toList = some 1709263799000 ∧
      instant? "\t2024/02/29 ".toList = some 1709164800000 ∧
      instantText? (-1) = some "1969-12-31T23:59:59.999+00:00" ∧
      instant? "1969-12-31T23:59:59.999+00:00".toList = some (-1) := by
  obtain ⟨htimes, hdates, hblanks, htexts, -, -⟩ := spellings_agree
  have hfrom : instantOf (Date.dayNumber ⟨1, 1, 1⟩) 0 0 0 0 ≤ -1 := by decide
  have hto : -1 < instantOf (Date.dayNumber ⟨10000, 1, 1⟩) 0 0 0 0 := by decide
  have hleap : Date.isValid ⟨2024, 2, 29⟩ = true := by decide
  refine ⟨⟨hleap, hfrom, hto⟩, ?_, ?_, ?_⟩
  · obtain ⟨-, -, -, -, hoffset⟩ := htimes ⟨2024, 2, 29⟩ 23 59 59 hleap (by decide) (by decide)
      (by decide) (by decide) (by decide)
    exact (hoffset 3 30 (by decide) (by decide)).2
  · have hday := (hdates ⟨2024, 2, 29⟩ hleap (by decide) (by decide)).2
    exact (hblanks ['\t'] (writtenDate '/' ⟨2024, 2, 29⟩) [' '] (List.forall_mem_singleton.mpr rfl)
      (List.forall_mem_singleton.mpr rfl)).trans hday
  · obtain ⟨text, htext, hinstant⟩ := htexts (-1) hfrom hto
    have hwritten : instantText? (-1) = some "1969-12-31T23:59:59.999+00:00" := by decide +kernel
    rw [hwritten, Option.some.injEq] at htext
    exact ⟨hwritten, htext ▸ hinstant⟩

end MarketReplay.Calendar
