import MarketReplay.Loading.BarDocument
import MarketReplay.Proofs.Loading.Rows
import MarketReplay.Proofs.ReadBack

/-!
# Documents are loaded whole or not at all

The first element of a document says what all of them have to be, rows or records, and one that is
not refuses the document. **`documents_all_or_nothing`**: which documents are loaded, what is loaded
of them, and what is the fault of the others. For rows it is the fault of the first element that is
no row, told with its place; for records it does not say where it lies.

No value is both a row and a record (`IsRow.not_record`): the place where a row counts trades is
where a record of nine fields has its quality. So every bar depends on its own element alone,
whatever stands first in the document.
-/

set_option autoImplicit false

namespace MarketReplay

variable {α : Type} [Scalar α] [DecimalText α]

/-! ## Rows

The rows of a document, read one after another up to the first bad one. -/

/-- What a reader of rows has to answer, the first of them having the number `index`: the bars of
all of them, or the fault of the first that is no row. It is a condition on the answer, so that one
theorem about the reader gives both directions. -/
def RowsOutcome (index : Nat) (rows : List (Json α)) : Except (Fault α) (List (Bar α)) → Prop
  | .ok bars => List.Forall₂ RowReads rows bars
  | .error fault => ∃ before row after problem, rows = before ++ row :: after ∧
      (∀ earlier ∈ before, IsRow earlier) ∧ RowFault row problem ∧
      fault = .collector (.row (index + before.length) problem)

theorem rowsOutcome_barsOfRowsFrom (index : Nat) (rows : List (Json α)) :
    RowsOutcome index rows (barsOfRowsFrom index rows) := by
  induction rows generalizing index with
  | nil => exact .nil
  | cons row rest ih =>
    have hrow := rowOutcome_barOfRow row
    unfold barsOfRowsFrom
    split
    · rename_i problem hproblem
      rw [hproblem] at hrow
      exact ⟨[], row, rest, problem, rfl, nofun, hrow, rfl⟩
    · rename_i bar hbar
      rw [hbar] at hrow
      have hrest := ih (index + 1)
      cases hread : barsOfRowsFrom (index + 1) rest with
      | ok bars =>
        rw [hread] at hrest
        exact .cons hrow hrest
      | error fault =>
        rw [hread] at hrest
        -- the fault lies further on, behind one row more
        obtain ⟨before, bad, after, problem, rfl, hbefore, hfault, rfl⟩ := hrest
        refine ⟨row :: before, bad, after, problem, rfl,
          List.forall_mem_cons.mpr ⟨hrow.isRow, hbefore⟩, hfault, ?_⟩
        rw [List.length_cons, Nat.add_right_comm, Nat.add_assoc]

theorem exists_barsOfRows {rows : List (Json α)} (h : ∀ row ∈ rows, IsRow row) :
    ∃ bars, barsOfRows rows = .ok bars ∧ List.Forall₂ RowReads rows bars := by
  have houtcome : RowsOutcome 0 rows (barsOfRows rows) := rowsOutcome_barsOfRowsFrom 0 rows
  cases hread : barsOfRows rows with
  | ok bars =>
    rw [hread] at houtcome
    exact ⟨bars, rfl, houtcome⟩
  | error fault =>
    rw [hread] at houtcome
    obtain ⟨before, row, after, problem, rfl, -, hfault, -⟩ := houtcome
    exact absurd (h row (List.mem_append_right before List.mem_cons_self)) hfault.not_isRow

/-- **One element that is no row refuses all of them**, and the first one is named. -/
theorem exists_first_fault {rows : List (Json α)} (h : ∃ row ∈ rows, ¬IsRow row) :
    ∃ before row after problem, rows = before ++ row :: after ∧
      (∀ earlier ∈ before, IsRow earlier) ∧ RowFault row problem ∧
      barsOfRows rows = .error (.collector (.row before.length problem)) := by
  have houtcome : RowsOutcome 0 rows (barsOfRows rows) := rowsOutcome_barsOfRowsFrom 0 rows
  cases hread : barsOfRows rows with
  | ok bars =>
    rw [hread] at houtcome
    obtain ⟨row, hrow, hbad⟩ := h
    exact absurd (forall_mem_of_forall₂ houtcome (fun _ _ => RowReads.isRow) row hrow) hbad
  | error fault =>
    rw [hread] at houtcome
    obtain ⟨before, row, after, problem, hrows, hbefore, hfault, rfl⟩ := houtcome
    refine ⟨before, row, after, problem, hrows, hbefore, hfault, ?_⟩
    rw [Nat.zero_add]

/-! ## Rows and records

Why a document cannot be read in two ways. A record may be given as a list of its fields, and then
it could be mistaken for a row. -/

omit [DecimalText α] in
theorem exists_quality_of_record {fields : List (Json α)} {j : Json α} {bar : Bar α}
    (hplace : fields[8]? = some j) (h : Bar.ofJson? (.list fields) = some bar) :
    ∃ quality, Quality.ofJson? j = some quality := by
  simp only [Bar.ofJson?, Option.bind_eq_bind, Option.bind_eq_some_iff] at h
  obtain ⟨f, hf, -, -, -, -, -, -, -, -, -, -, -, -, -, -, -, -, quality, hquality, -⟩ := h
  have hlisted : f = .listed fields := by
    unfold Json.fields? at hf
    dsimp only at hf
    split at hf
    · exact (Option.some.inj hf).symm
    · cases hf
  rw [hlisted, Json.Fields.withDefault, Json.Fields.find?, hplace] at hquality
  exact ⟨quality, hquality⟩

/-- **No row is a record**: a count of trades is no quality. The ninth place is where the two
differ, and a row always has one. -/
theorem IsRow.not_record {row : Json α} (h : IsRow row) : Bar.ofJson? row = none := by
  obtain ⟨fields, rfl, -, hholds⟩ := h
  obtain ⟨j, hplace, n, -, rfl⟩ := hholds .tradeCount
  rw [Option.eq_none_iff_forall_ne_some]
  intro bar hbar
  obtain ⟨quality, hquality⟩ := exists_quality_of_record hplace hbar
  cases hquality

/-- An element is loaded as a bar: it is a row or a record of it. Which of the two is decided for a
whole list, by its first element. -/
def Loads (element : Json α) (bar : Bar α) : Prop :=
  RowReads element bar ∨ Bar.ofJson? element = some bar

/-- **A bar depends on its element alone.** -/
theorem loads_unique {element : Json α} {bar bar' : Bar α} (h : Loads element bar)
    (h' : Loads element bar') : bar = bar' := by
  rcases h with hrow | hrecord <;> rcases h' with hrow' | hrecord'
  · exact hrow.unique hrow'
  · cases hrow.isRow.not_record.symm.trans hrecord'
  · cases hrow'.isRow.not_record.symm.trans hrecord
  · exact Option.some.inj (hrecord.symm.trans hrecord')

/-! ## Documents

The statement about documents, whose first element decides how all of them are read. -/

/-- A list of values. -/
def IsList (j : Json α) : Prop := ∃ items, j = .list items

/-- A document that can be loaded: an empty list, a list of rows, or a list of records of which the
first is itself no list. The records behind the first may be lists of fields. -/
inductive IsBarDocument : Json α → Prop
  | empty : IsBarDocument (.list [])
  | rows {items : List (Json α)} (h : ∀ item ∈ items, IsRow item) : IsBarDocument (.list items)
  | records {first : Json α} {rest : List (Json α)} (hfirst : ¬IsList first)
    (h : ∀ item ∈ first :: rest, ∃ bar, Bar.ofJson? item = some bar) :
    IsBarDocument (.list (first :: rest))

theorem barsOfDocument_of_not_isList {document : Json α} (h : ¬IsList document) :
    barsOfDocument document = .error (.source .notAListOfBars) := by
  cases document with
  | list items => exact absurd ⟨items, rfl⟩ h
  | _ => rfl

theorem barsOfDocument_of_first_isList {first : Json α} (h : IsList first) (rest : List (Json α)) :
    barsOfDocument (.list (first :: rest)) = barsOfRows (first :: rest) := by
  obtain ⟨fields, rfl⟩ := h
  rfl

theorem barsOfDocument_of_first_not_isList {first : Json α} (h : ¬IsList first)
    (rest : List (Json α)) :
    barsOfDocument (.list (first :: rest)) =
      match (first :: rest).mapM Bar.ofJson? with
      | some bars => .ok bars
      | none => .error .document := by
  cases first with
  | list fields => exact absurd ⟨fields, rfl⟩ h
  | _ => rfl

/-- What is loaded is a document of bars, with a bar for each element. The cases are those of the
reader: by the document, and by its first element. -/
theorem loaded_of_eq_ok {document : Json α} {bars : List (Bar α)}
    (h : barsOfDocument document = .ok bars) :
    IsBarDocument document ∧ ∃ items, document = .list items ∧ List.Forall₂ Loads items bars := by
  by_cases hlist : IsList document
  · obtain ⟨items, rfl⟩ := hlist
    cases items with
    | nil =>
      cases h
      exact ⟨.empty, [], rfl, .nil⟩
    | cons first rest =>
      by_cases hfirst : IsList first
      · rw [barsOfDocument_of_first_isList hfirst] at h
        -- otherwise the first bad element would have refused the document
        have hrows : ∀ row ∈ first :: rest, IsRow row := by
          by_contra hbad
          push Not at hbad
          obtain ⟨_, _, _, _, -, -, -, hrefused⟩ := exists_first_fault hbad
          cases hrefused.symm.trans h
        obtain ⟨bars', hbars', hreads⟩ := exists_barsOfRows hrows
        cases hbars'.symm.trans h
        exact ⟨.rows hrows, _, rfl, hreads.imp fun _ _ => .inl⟩
      · rw [barsOfDocument_of_first_not_isList hfirst] at h
        split at h
        · rename_i hread
          cases h
          have hreads := forall₂_of_mapM_eq_some hread
          refine ⟨.records hfirst ?_, _, rfl, hreads.imp fun _ _ => .inr⟩
          exact forall_mem_of_forall₂ hreads fun _ bar hbar => ⟨bar, hbar⟩
        · cases h
  · cases (barsOfDocument_of_not_isList hlist).symm.trans h

theorem exists_bars {document : Json α} (h : IsBarDocument document) :
    ∃ bars, barsOfDocument document = .ok bars := by
  cases h with
  | empty => exact ⟨[], rfl⟩
  | @rows items hrows =>
    cases items with
    | nil => exact ⟨[], rfl⟩
    | cons first rest =>
      obtain ⟨fields, hfirst, -⟩ := hrows first List.mem_cons_self
      obtain ⟨bars, hbars, -⟩ := exists_barsOfRows hrows
      exact ⟨bars, (barsOfDocument_of_first_isList ⟨fields, hfirst⟩ rest).trans hbars⟩
  | @records first rest hfirst hrecords =>
    rw [barsOfDocument_of_first_not_isList hfirst]
    cases hread : (first :: rest).mapM Bar.ofJson? with
    | some bars => exact ⟨bars, rfl⟩
    | none =>
      -- a list that is not read has an element that is not, and there is none
      obtain ⟨item, hitem, hnone⟩ := mapM_eq_none_iff.mp hread
      obtain ⟨bar, hbar⟩ := hrecords item hitem
      cases hnone.symm.trans hbar

omit [Scalar α] in
theorem message_collector_row (index : Nat) (problem : RowProblem) :
    (Fault.collector (α := α) (.row index problem)).message =
      "Collector error: " ++ ("kline row " ++ toString index ++ ": " ++ problem.message) := rfl

omit [Scalar α] in
theorem exists_message_collector (index : Nat) (column : RowColumn) (j : Json α) :
    ∃ complaint, (Fault.collector (α := α) (.row index (column.problem j))).message =
      "Collector error: kline row " ++ toString index ++ ": " ++ column.name ++ complaint := by
  obtain ⟨complaint, hcomplaint⟩ := column.exists_message_problem j
  have hwords : "Collector error: kline row " = "Collector error: " ++ "kline row " := rfl
  refine ⟨complaint, ?_⟩
  rw [message_collector_row, hcomplaint, hwords]
  simp only [String.append_assoc]

/-- **Documents are loaded whole or not at all.** The documents of bars are loaded, with a bar for
each element that depends on nothing else. What is no list is refused as such. Where the first
element is a list, the first that is no row is refused with its place and its fault. Where it is
none, an element that is no record refuses the document. -/
theorem documents_all_or_nothing (document : Json α) :
    ((∃ bars, barsOfDocument document = .ok bars) ↔ IsBarDocument document) ∧
    (∀ bars, barsOfDocument document = .ok bars →
      ∃ items, document = .list items ∧ List.Forall₂ Loads items bars) ∧
    (∀ (element : Json α) (bar bar' : Bar α), Loads element bar → Loads element bar' → bar = bar') ∧
    (¬IsList document → barsOfDocument document = .error (.source .notAListOfBars)) ∧
    (∀ first rest, document = .list (first :: rest) → IsList first →
      (∃ item ∈ first :: rest, ¬IsRow item) →
      ∃ before item after problem, first :: rest = before ++ item :: after ∧
        (∀ earlier ∈ before, IsRow earlier) ∧ RowFault item problem ∧
        barsOfDocument document = .error (.collector (.row before.length problem))) ∧
    (∀ first rest, document = .list (first :: rest) → ¬IsList first →
      (∃ item ∈ first :: rest, Bar.ofJson? item = none) →
      barsOfDocument document = .error .document) ∧
    ∀ (index : Nat) (column : RowColumn) (j : Json α), ∃ complaint,
      (Fault.collector (α := α) (.row index (column.problem j))).message =
        "Collector error: kline row " ++ toString index ++ ": " ++ column.name ++ complaint := by
  refine ⟨⟨?_, exists_bars⟩, ?_, fun _ _ _ => loads_unique, barsOfDocument_of_not_isList, ?_, ?_,
    exists_message_collector⟩
  · rintro ⟨bars, hbars⟩
    exact (loaded_of_eq_ok hbars).1
  · intro bars hbars
    exact (loaded_of_eq_ok hbars).2
  · rintro first rest rfl hfirst hbad
    rw [barsOfDocument_of_first_isList hfirst]
    exact exists_first_fault hbad
  · rintro first rest rfl hfirst hbad
    rw [barsOfDocument_of_first_not_isList hfirst, mapM_eq_none_iff.mpr hbad]

/-! ## A sample -/

/-- A row with texts and numbers, and one column more than needed. -/
def sampleRow : Json Float :=
  .list [.int 60000, .string "1", .real 2, .real 0.5, .string "1.5e0", .real 3, .null,
    .string "4.5", .int 7, .bool true]

/-- The bar that it stands for. -/
def sampleRowBar : Bar Float :=
  { Bar.ofPrices 60000 1 2 0.5 1.5 3 with quoteVolume := 4.5, tradeCount := 7 }

theorem rowReads_sampleRow : RowReads sampleRow sampleRowBar :=
  ⟨_, rfl, rfl, by decide, ⟨_, rfl, .text (by decide +kernel)⟩, ⟨_, rfl, .real _⟩,
    ⟨_, rfl, .real _⟩, ⟨_, rfl, .text (by decide +kernel)⟩, ⟨_, rfl, .real _⟩,
    ⟨_, rfl, .text (by decide +kernel)⟩, rfl, by decide, rfl⟩

/-- The row alone is loaded, and an object behind it refuses both. -/
theorem documents_all_or_nothing_sample :
    (∃ bars, barsOfDocument (.list [sampleRow]) = .ok bars) ∧
      IsList sampleRow ∧ ¬IsRow (.object [] : Json Float) ∧
      ∃ before item after problem, [sampleRow, .object []] = before ++ item :: after ∧
        (∀ earlier ∈ before, IsRow earlier) ∧ RowFault item problem ∧
        barsOfDocument (.list [sampleRow, .object []]) =
          .error (.collector (.row before.length problem)) := by
  have hlist : IsList sampleRow := ⟨_, rfl⟩
  have hrow : IsRow sampleRow := rowReads_sampleRow.isRow
  have hobject : ¬IsRow (.object [] : Json Float) := fun ⟨_, h, _⟩ => nomatch h
  obtain ⟨hloaded, -⟩ := documents_all_or_nothing (.list [sampleRow])
  obtain ⟨-, -, -, -, hrefused, -⟩ := documents_all_or_nothing (.list [sampleRow, .object []])
  refine ⟨hloaded.mpr (.rows ?_), hlist, hobject, hrefused _ _ rfl hlist ?_⟩
  · intro item hitem
    rwa [List.mem_singleton.mp hitem]
  · exact ⟨.object [], List.mem_cons_of_mem _ List.mem_cons_self, hobject⟩

end MarketReplay
