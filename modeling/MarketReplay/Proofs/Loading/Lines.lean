import MarketReplay.Loading.Table
import MarketReplay.Proofs.ReadBack
import MarketReplay.Proofs.Text.Blank

/-!
# Tables written line by line

The plainest way to write a table: a heading, and for each record a line of its fields with commas
between them. **Such a table has exactly the records written**, if the fields are texts without
commas, quotes and blanks (`Table.records_tableOf`). The heading may be any record at all, and the
last line may have an end or none.

Splitting goes byte by byte, with a place that says what the byte belongs to. The lemmas here follow
it over longer pieces: over bytes that separate nothing, over one field, over a line.

The heading needs another argument, as nothing is known about its fields. It is followed by its
places alone (`Place.next?`): whatever is read on the way, a line end in a place where a record may
end ends it, and what was read does not matter, because the heading is dropped.
-/

set_option autoImplicit false

namespace MarketReplay

/-! ## Bytes of a text

Fields are texts and a table is bytes. A comma, a quote or a line end in the bytes of a text can
only come from that character, since all other characters have bytes from 128 on. -/

/-- The bytes of a text in UTF-8. -/
def utf8Bytes (s : String) : List UInt8 := s.toUTF8.data.toList

theorem utf8Bytes_eq_flatMap (s : String) :
    utf8Bytes s = s.toList.flatMap String.utf8EncodeChar := by
  have h : s.toUTF8 = (s.toList.flatMap String.utf8EncodeChar).toByteArray :=
    String.utf8Encode_toList.symm
  rw [utf8Bytes, h, List.toList_data_toByteArray]

theorem utf8Bytes_ne_nil {s : String} (h : s ≠ "") : utf8Bytes s ≠ [] := by
  intro hnil
  rw [utf8Bytes_eq_flatMap, List.flatMap_eq_nil_iff] at hnil
  refine h (String.toList_eq_nil_iff.mp (List.eq_nil_iff_forall_not_mem.mpr fun c hc => ?_))
  exact String.utf8EncodeChar_ne_nil (hnil c hc)

theorem toNat_of_mem_utf8EncodeChar {c : Char} {b : UInt8} (hb : b ∈ String.utf8EncodeChar c)
    (hlt : b.toNat < 128) : b.toNat = c.toNat := by
  have hvalue : c.val.toNat = c.toNat := rfl
  unfold String.utf8EncodeChar at hb
  simp only [hvalue] at hb
  -- the bytes of longer forms are 128 and above
  split at hb
  · rw [List.mem_singleton.mp hb, UInt8.toNat_ofNat']
    omega
  · exfalso
    split at hb
    · simp only [List.mem_cons, List.not_mem_nil, or_false] at hb
      rcases hb with rfl | rfl <;> rw [UInt8.toNat_ofNat'] at hlt <;> omega
    · split at hb
      · simp only [List.mem_cons, List.not_mem_nil, or_false] at hb
        rcases hb with rfl | rfl | rfl <;> rw [UInt8.toNat_ofNat'] at hlt <;> omega
      · simp only [List.mem_cons, List.not_mem_nil, or_false] at hb
        rcases hb with rfl | rfl | rfl | rfl <;> rw [UInt8.toNat_ofNat'] at hlt <;> omega

theorem fromUTF8?_utf8Bytes (s : String) : String.fromUTF8? ⟨(utf8Bytes s).toArray⟩ = some s := by
  have hbytes : (⟨(utf8Bytes s).toArray⟩ : ByteArray) = s.toUTF8 := rfl
  rw [hbytes]
  unfold String.fromUTF8?
  exact dif_pos s.isValidUTF8

namespace Table

/-- A field that stands for itself in a line: no comma, no quote and no blank is in it. Line ends
are blanks, so none is in it either. -/
def IsPlain (field : String) : Prop :=
  ∀ c ∈ field.toList, c ≠ ',' ∧ c ≠ '"' ∧ Text.isBlank c = false

theorem fieldText?_utf8Bytes {field : String} (h : IsPlain field) :
    fieldText? (utf8Bytes field) = some field := by
  rw [fieldText?, fromUTF8?_utf8Bytes, Option.map_some, Text.trim_eq_self fun c hc => (h c hc).2.2,
    String.ofList_toList]

/-- A byte that neither ends a field or a line nor is a quote. -/
def isInner (b : UInt8) : Bool := b != comma && b != quote && !isLineEnd b

/-- The bytes of a plain field are inner ones. A byte below 128 stands for its own character, which
is none of those that separate; a byte from 128 on is no such byte anyway. -/
theorem isInner_of_mem {field : String} (h : IsPlain field) {b : UInt8}
    (hb : b ∈ utf8Bytes field) : isInner b = true := by
  rw [utf8Bytes_eq_flatMap] at hb
  obtain ⟨c, hc, hb⟩ := List.mem_flatMap.mp hb
  obtain ⟨hcomma, hquote, hblank⟩ := h c hc
  -- a byte of the field that is an ASCII separator would be the character itself
  have hne : ∀ d : Char, d.toNat < 128 → c ≠ d → b ≠ UInt8.ofNat d.toNat := by
    rintro d hd hcd rfl
    have hbyte : (UInt8.ofNat d.toNat).toNat = d.toNat := by
      rw [UInt8.toNat_ofNat']
      omega
    refine hcd (Char.toNat_inj.mp ?_)
    rw [← toNat_of_mem_utf8EncodeChar hb (by rw [hbyte]; exact hd), hbyte]
  have hline : ∀ d : Char, Text.isBlank d = true → c ≠ d := by
    rintro d hd rfl
    exact absurd (hblank.symm.trans hd) Bool.false_ne_true
  have h44 : b ≠ comma := hne ',' (by decide) hcomma
  have h34 : b ≠ quote := hne '"' (by decide) hquote
  have h10 : b ≠ 10 := hne '\n' (by decide) (hline '\n' rfl)
  have h13 : b ≠ 13 := hne '\r' (by decide) (hline '\r' rfl)
  simp [isInner, isLineEnd, h44, h34, h10, h13]

/-! ## Splitting

What splitting does with inner bytes, a comma and the end of a line, from each place where they may
stand. The fields and the bytes read so far are kept in reverse, as the splitter keeps them. -/

@[simp] theorem isLineEnd_comma : isLineEnd comma = false := rfl

@[simp] theorem isLineEnd_quote : isLineEnd quote = false := rfl

@[simp] theorem quote_ne_comma : quote ≠ comma := by decide

section splitting

variable {fields : List (List UInt8)} {field rest : List UInt8} {b : UInt8}

theorem split_unquoted_inner (h : isInner b = true) :
    split .unquoted fields field (b :: rest) = split .unquoted fields (b :: field) rest := by
  simp only [isInner, Bool.and_eq_true, bne_iff_ne, Bool.not_eq_true'] at h
  simp [split, h]

theorem split_fieldStart_inner (h : isInner b = true) :
    split .fieldStart fields [] (b :: rest) = split .unquoted fields [b] rest := by
  simp only [isInner, Bool.and_eq_true, bne_iff_ne, Bool.not_eq_true'] at h
  simp [split, h]

theorem split_unquoted_append {inner : List UInt8} (h : ∀ b ∈ inner, isInner b = true) :
    split .unquoted fields field (inner ++ rest) =
      split .unquoted fields (inner.reverse ++ field) rest := by
  induction inner generalizing field with
  | nil => rfl
  | cons b inner ih =>
    obtain ⟨hb, hinner⟩ := List.forall_mem_cons.mp h
    rw [List.cons_append, split_unquoted_inner hb, ih hinner, List.reverse_cons,
      List.append_assoc]
    rfl

theorem split_field_comma {inner : List UInt8} (h : ∀ b ∈ inner, isInner b = true) :
    split .fieldStart fields [] (inner ++ comma :: rest) =
      split .fieldStart (inner :: fields) [] rest := by
  cases inner with
  | nil => rfl
  | cons b inner =>
    obtain ⟨hb, hinner⟩ := List.forall_mem_cons.mp h
    rw [List.cons_append, split_fieldStart_inner hb, split_unquoted_append hinner]
    simp [split]

theorem split_lineEnds {ends : List UInt8} (h : ∀ b ∈ ends, isLineEnd b = true) :
    split .recordStart [] [] (ends ++ rest) = split .recordStart [] [] rest := by
  induction ends with
  | nil => rfl
  | cons b ends ih =>
    obtain ⟨hb, hends⟩ := List.forall_mem_cons.mp h
    rw [List.cons_append, split, ← ih hends]
    simp [hb]

/-- What may follow a line: nothing, or bytes that begin with a line end. A last line needs no
end. -/
def EndsLine (rest : List UInt8) : Prop := ∀ b ∈ rest.head?, isLineEnd b = true

theorem split_unquoted_endsLine (h : EndsLine rest) :
    split .unquoted fields field rest =
      finished fields field :: split .recordStart [] [] rest := by
  cases rest with
  | nil => rfl
  | cons b rest => simp [split, h b rfl]

theorem split_field_endsLine {inner : List UInt8} (h : ∀ b ∈ inner, isInner b = true)
    (hrest : EndsLine rest) :
    split .fieldStart fields [] (inner ++ rest) =
      finished fields inner.reverse :: split .recordStart [] [] rest := by
  cases inner with
  | nil =>
    cases rest with
    | nil => rfl
    | cons b rest => simp [split, hrest b rfl]
  | cons b inner =>
    obtain ⟨hb, hinner⟩ := List.forall_mem_cons.mp h
    rw [List.cons_append, split_fieldStart_inner hb, split_unquoted_append hinner,
      split_unquoted_endsLine hrest, List.reverse_cons]

/-- The bytes of fields with commas between them. -/
def lineOf : List (List UInt8) → List UInt8
  | [] => []
  | [field] => field
  | field :: rest => field ++ comma :: lineOf rest

/-- **A line is one record of its fields.** The induction is on the fields that are still to come,
and the fields already split off stand in front of them. -/
theorem split_lineOf {first : List UInt8} {others : List (List UInt8)}
    (h : ∀ field ∈ first :: others, ∀ b ∈ field, isInner b = true) (hrest : EndsLine rest) :
    split .fieldStart fields [] (lineOf (first :: others) ++ rest) =
      (fields.reverse ++ first :: others) :: split .recordStart [] [] rest := by
  induction others generalizing first fields with
  | nil =>
    rw [lineOf, split_field_endsLine (h first List.mem_cons_self) hrest]
    simp [finished]
  | cons second others ih =>
    obtain ⟨hfirst, hothers⟩ := List.forall_mem_cons.mp h
    rw [lineOf, List.append_assoc, List.cons_append, split_field_comma hfirst, ih hothers]
    · simp
    · exact nofun

theorem split_recordStart (h : isLineEnd b = false) :
    split .recordStart [] [] (b :: rest) = split .fieldStart [] [] (b :: rest) := by
  simp [split, h]

end splitting

/-! ## Headings

The places as an automaton. It runs without keeping what was read, and may be run by a decision
procedure on a heading that is given. -/

/-- The place after a byte, if the byte belongs to the record. -/
def Place.next? (place : Place) (b : UInt8) : Option Place :=
  match place with
  | .quoted => some (if b = quote then .afterQuote else .quoted)
  | .unquoted =>
    if isLineEnd b then none else some (if b = comma then .fieldStart else .unquoted)
  | .recordStart | .fieldStart | .afterQuote =>
    if isLineEnd b then none
    else some (if b = comma then .fieldStart else if b = quote then .quoted else .unquoted)

/-- A line end here ends a record. Between quotes it belongs to the field, and where no record has
begun it is passed over. -/
def Place.isOpen : Place → Bool
  | .fieldStart | .unquoted | .afterQuote => true
  | .recordStart | .quoted => false

/-- Bytes that are one record, once a line end follows: commas and quotes may stand in them as they
like, if what is quoted comes to an end. -/
def IsRecord (bytes : List UInt8) : Prop :=
  (bytes.foldlM Place.next? .recordStart).any Place.isOpen = true

instance (bytes : List UInt8) : Decidable (IsRecord bytes) :=
  inferInstanceAs (Decidable (_ = true))

/-- A byte of a record changes the place and what has been read, whatever follows. -/
theorem split_next {place place' : Place} {b : UInt8} (h : place.next? b = some place')
    (fields : List (List UInt8)) (field : List UInt8) :
    ∃ fields' field', ∀ rest,
      split place fields field (b :: rest) = split place' fields' field' rest := by
  cases place with
  | quoted =>
    cases h
    by_cases hquote : b = quote
    · exact ⟨fields, field, fun rest => by simp [split, hquote]⟩
    · exact ⟨fields, b :: field, fun rest => by simp [split, hquote]⟩
  | unquoted =>
    obtain ⟨hline, rfl⟩ : isLineEnd b = false ∧ _ = place' := by simpa [Place.next?] using h
    by_cases hcomma : b = comma
    · exact ⟨field.reverse :: fields, [], fun rest => by simp [split, hcomma]⟩
    · exact ⟨fields, b :: field, fun rest => by simp [split, hline, hcomma]⟩
  -- in the other places what has been read is nothing, or is dropped by the next byte
  | recordStart =>
    obtain ⟨hline, rfl⟩ : isLineEnd b = false ∧ _ = place' := by simpa [Place.next?] using h
    by_cases hcomma : b = comma
    · exact ⟨[[]], [], fun rest => by simp [split, hcomma]⟩
    · by_cases hquote : b = quote
      · exact ⟨[], [], fun rest => by simp [split, hquote]⟩
      · exact ⟨[], [b], fun rest => by simp [split, hline, hcomma, hquote]⟩
  | fieldStart =>
    obtain ⟨hline, rfl⟩ : isLineEnd b = false ∧ _ = place' := by simpa [Place.next?] using h
    by_cases hcomma : b = comma
    · exact ⟨[] :: fields, [], fun rest => by simp [split, hcomma]⟩
    · by_cases hquote : b = quote
      · exact ⟨fields, [], fun rest => by simp [split, hquote]⟩
      · exact ⟨fields, [b], fun rest => by simp [split, hline, hcomma, hquote]⟩
  | afterQuote =>
    obtain ⟨hline, rfl⟩ : isLineEnd b = false ∧ _ = place' := by simpa [Place.next?] using h
    by_cases hcomma : b = comma
    · exact ⟨field.reverse :: fields, [], fun rest => by simp [split, hcomma]⟩
    · by_cases hquote : b = quote
      · exact ⟨fields, b :: field, fun rest => by simp [split, hquote]⟩
      · exact ⟨fields, b :: field, fun rest => by simp [split, hline, hcomma, hquote]⟩

theorem split_foldlM {bytes : List UInt8} {place place' : Place}
    (h : bytes.foldlM Place.next? place = some place') (fields : List (List UInt8))
    (field : List UInt8) :
    ∃ fields' field', ∀ rest,
      split place fields field (bytes ++ rest) = split place' fields' field' rest := by
  induction bytes generalizing place fields field with
  | nil =>
    cases h
    exact ⟨fields, field, fun _ => rfl⟩
  | cons b bytes ih =>
    obtain ⟨next, hnext, hrest⟩ := Option.bind_eq_some_iff.mp h
    obtain ⟨fields₁, field₁, hstep⟩ := split_next hnext fields field
    obtain ⟨fields₂, field₂, hbytes⟩ := ih hrest fields₁ field₁
    exact ⟨fields₂, field₂, fun rest => (hstep (bytes ++ rest)).trans (hbytes rest)⟩

/-- Where a record may end, the end of a line ends it. -/
theorem split_isOpen {place : Place} (h : place.isOpen = true) {rest : List UInt8}
    (hrest : EndsLine rest) (fields : List (List UInt8)) (field : List UInt8) :
    ∃ record, split place fields field rest = record :: split .recordStart [] [] rest := by
  cases place with
  | recordStart => cases h
  | quoted => cases h
  | unquoted => exact ⟨_, split_unquoted_endsLine hrest⟩
  | fieldStart =>
    cases rest with
    | nil => exact ⟨_, rfl⟩
    | cons b rest => exact ⟨finished fields [], by simp [split, hrest b rfl]⟩
  | afterQuote =>
    cases rest with
    | nil => exact ⟨_, rfl⟩
    | cons b rest => exact ⟨finished fields field, by simp [split, hrest b rfl]⟩

theorem split_record {bytes rest : List UInt8} (h : IsRecord bytes) (hrest : EndsLine rest) :
    ∃ record, split .recordStart [] [] (bytes ++ rest) =
      record :: split .recordStart [] [] rest := by
  obtain ⟨hplace, hopen⟩ := (Option.any_eq_true_iff_get _ _).mp h
  obtain ⟨fields, field, hbytes⟩ := split_foldlM (Option.some_get hplace).symm [] []
  rw [hbytes]
  exact split_isOpen hopen hrest fields field

/-! ## Whole tables

Heading, lines and ends put together, with the byte-order mark that may stand in front. -/

/-- The ends of a line: one line-end byte or more. -/
def IsLineEnd (ends : List UInt8) : Prop := ends ≠ [] ∧ ∀ b ∈ ends, isLineEnd b = true

/-- The lines after the heading, each after the end of the line before it, and what follows the last
line. -/
def linesOf (ends : List UInt8) (rows : List (List String)) (final : List UInt8) : List UInt8 :=
  (rows.flatMap fun row => ends ++ lineOf (row.map utf8Bytes)) ++ final

/-- The bytes of a table, line by line. -/
def tableOf (heading ends : List UInt8) (rows : List (List String)) (final : List UInt8) :
    List UInt8 :=
  heading ++ linesOf ends rows final

theorem endsLine_linesOf {ends final : List UInt8} {rows : List (List String)}
    (hends : IsLineEnd ends) (hfinal : ∀ b ∈ final, isLineEnd b = true) :
    EndsLine (linesOf ends rows final) := by
  intro b hb
  cases rows with
  | nil => exact hfinal b (List.mem_of_mem_head? hb)
  | cons row rows =>
    obtain ⟨e, more, rfl⟩ := List.exists_cons_of_ne_nil hends.1
    cases hb
    exact hends.2 b List.mem_cons_self

theorem withoutMark_of_unmarked {bytes : List UInt8}
    (h : ∀ rest, bytes ≠ 0xEF :: 0xBB :: 0xBF :: rest) : withoutMark bytes = bytes := by
  unfold withoutMark
  split
  · exact absurd rfl (h _)
  · rfl

/-- A byte-order mark is one of the heading, since no line end is part of it. -/
theorem withoutMark_append {heading rest : List UInt8} (hrest : EndsLine rest) :
    withoutMark (heading ++ rest) = withoutMark heading ++ rest := by
  by_cases hmark : ∃ body, heading = 0xEF :: 0xBB :: 0xBF :: body
  · obtain ⟨body, rfl⟩ := hmark
    rfl
  · have hunmarked : ∀ body, heading ≠ 0xEF :: 0xBB :: 0xBF :: body := by
      rintro body rfl
      exact hmark ⟨body, rfl⟩
    rw [withoutMark_of_unmarked hunmarked, withoutMark_of_unmarked]
    intro body heq
    match heading, heq with
    -- a mark that the rest would complete begins with a line end, and no mark has one
    | [], heq | [_], heq | [_, _], heq =>
      cases rest with
      | nil => cases heq
      | cons e rest =>
        have he : isLineEnd e = true := hrest e rfl
        simp only [List.cons_append, List.nil_append, List.cons.injEq] at heq
        obtain rfl | rfl | rfl : e = 0xEF ∨ e = 0xBB ∨ e = 0xBF := by grind
        all_goals exact absurd he (by decide)
    | _ :: _ :: _ :: rest, heq =>
      simp only [List.cons_append, List.cons.injEq] at heq
      obtain ⟨rfl, rfl, rfl, -⟩ := heq
      exact hunmarked rest rfl

/-- A first line: one record, whatever it says, after the byte-order mark if there is one. Columns
are told by their places and not by their names. -/
def IsHeading (heading : List UInt8) : Prop := IsRecord (withoutMark heading)

instance (heading : List UInt8) : Decidable (IsHeading heading) :=
  inferInstanceAs (Decidable (IsRecord _))

/-- The fields of a line; the first of them is not empty. With this no line is empty, and an empty
line would be no record. -/
structure IsLine (row : List String) : Prop where
  headed : ∃ first others, row = first :: others ∧ first ≠ ""
  plain : ∀ field ∈ row, IsPlain field

theorem split_row {row : List String} (hrow : IsLine row) {rest : List UInt8}
    (hrest : EndsLine rest) :
    split .recordStart [] [] (lineOf (row.map utf8Bytes) ++ rest) =
      row.map utf8Bytes :: split .recordStart [] [] rest := by
  obtain ⟨⟨first, others, rfl, hfirst⟩, hplain⟩ := hrow
  have hinner : ∀ field ∈ utf8Bytes first :: others.map utf8Bytes,
      ∀ b ∈ field, isInner b = true := by
    intro field hfield b hb
    rw [← List.map_cons] at hfield
    obtain ⟨text, htext, rfl⟩ := List.mem_map.mp hfield
    exact isInner_of_mem (hplain text htext) hb
  -- the first field is not empty, so that the line begins with a byte of it
  obtain ⟨b, more, hb⟩ := List.exists_cons_of_ne_nil (utf8Bytes_ne_nil hfirst)
  obtain ⟨body, hline⟩ : ∃ body, lineOf ((first :: others).map utf8Bytes) = b :: body := by
    cases others with
    | nil => exact ⟨more, hb⟩
    | cons second others =>
      refine ⟨more ++ comma :: lineOf ((second :: others).map utf8Bytes), ?_⟩
      rw [List.map_cons, List.map_cons, lineOf, hb]
      · rfl
      · exact nofun
  have hlineEnd : isLineEnd b = false := by
    have hb := hinner _ List.mem_cons_self b (hb ▸ List.mem_cons_self)
    simp only [isInner, Bool.and_eq_true, Bool.not_eq_true'] at hb
    exact hb.2
  rw [hline, List.cons_append, split_recordStart hlineEnd, ← List.cons_append, ← hline,
    List.map_cons, split_lineOf hinner hrest]
  rfl

theorem split_linesOf {ends final : List UInt8} (hends : IsLineEnd ends)
    (hfinal : ∀ b ∈ final, isLineEnd b = true) {rows : List (List String)}
    (hrows : ∀ row ∈ rows, IsLine row) :
    split .recordStart [] [] (linesOf ends rows final) =
      rows.map fun row => row.map utf8Bytes := by
  induction rows with
  | nil =>
    rw [← List.append_nil (linesOf ends [] final)]
    exact split_lineEnds hfinal
  | cons row rows ih =>
    obtain ⟨hrow, hrest⟩ := List.forall_mem_cons.mp hrows
    have hlines : linesOf ends (row :: rows) final =
        ends ++ (lineOf (row.map utf8Bytes) ++ linesOf ends rows final) := by
      simp only [linesOf, List.flatMap_cons, List.append_assoc]
    rw [hlines, split_lineEnds hends.2, split_row hrow (endsLine_linesOf hends hfinal), ih hrest,
      List.map_cons]

/-- **A table written line by line has the records written.** -/
theorem records_tableOf {heading ends final : List UInt8} {rows : List (List String)}
    (hheading : IsHeading heading) (hends : IsLineEnd ends)
    (hfinal : ∀ b ∈ final, isLineEnd b = true) (hrows : ∀ row ∈ rows, IsLine row) :
    records (tableOf heading ends rows final) = rows.map some := by
  have hlines : EndsLine (linesOf ends rows final) := endsLine_linesOf hends hfinal
  obtain ⟨record, hrecord⟩ := split_record hheading hlines
  rw [records, tableOf, withoutMark_append hlines, hrecord, split_linesOf hends hfinal hrows,
    List.drop_one, List.tail_cons, List.map_map]
  refine List.map_congr_left fun row hrow => ?_
  exact mapM_map_eq_some fun field hfield =>
    fieldText?_utf8Bytes ((hrows row hrow).plain field hfield)

end Table

end MarketReplay
