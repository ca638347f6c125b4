import Mathlib.Data.List.Forall2
import MarketReplay.Loading.BarTable
import MarketReplay.Proofs.Loading.Lines

/-!
# The spare columns of a bar table

A table is read record by record, and one bar comes of each (`barsOfRecords_eq_ok_iff`). The first
six columns have to be right. The two others should count as zero where there is nothing in them
and otherwise be taken as they stand (`Taken`).

**They are not always.** A spare column that cannot be read counts as zero as well
(`spareField_eq_iff`), so it is never the reason why a table is refused (`spare_columns_default`). A
count below zero is loaded as no trades at all (`malformed_count_loaded`).
-/

set_option autoImplicit false

namespace MarketReplay

/-! ## One column

How the two spare columns should be read, and how they are. The reader and the zero of the column
are parameters, since both columns are treated in the same way. -/

section column

variable {β : Type}

/-- A column is there and reads as a value. -/
def ColumnReads (read? : List Char → Option β) (fields : List String) (column : Nat) (value : β) :
    Prop :=
  ∃ text, fields[column]? = some text ∧ read? text.toList = some value

/-- A spare column is taken as it stands: as the value that it reads as, or as zero if it is absent
or empty. -/
inductive Taken (read? : List Char → Option β) (zero : β) : Option String → β → Prop
  | absent : Taken read? zero none zero
  | empty : Taken read? zero (some "") zero
  | value {text : String} {x : β} (h : read? text.toList = some x) :
    Taken read? zero (some text) x

/-- A column has a text that cannot be read. An empty text is not malformed: it is how a line leaves
a column out. -/
def Malformed (read? : List Char → Option β) (column : Option String) : Prop :=
  ∃ text, column = some text ∧ text ≠ "" ∧ read? text.toList = none

theorem Malformed.not_taken {read? : List Char → Option β} {zero x : β} {column : Option String}
    (h : Malformed read? column) : ¬Taken read? zero column x := by
  obtain ⟨text, htext, hne, hread⟩ := h
  intro htaken
  cases htaken with
  | absent => cases htext
  | empty => exact hne (Option.some.inj htext).symm
  | value hvalue =>
    cases htext
    exact absurd (hread.symm.trans hvalue) nofun

/-- **What a spare column counts as**: it is taken as it stands or, if it is malformed, as zero. -/
theorem spareField_eq_iff {read? : List Char → Option β} (hempty : read? [] = none) (zero : β)
    (column : Option String) (x : β) :
    spareField read? zero column = x ↔
      Taken read? zero column x ∨ Malformed read? column ∧ x = zero := by
  constructor
  · rintro rfl
    cases column with
    | none => exact .inl .absent
    | some text =>
      cases hread : read? text.toList with
      | some x =>
        rw [spareField, hread]
        exact .inl (.value hread)
      | none =>
        rw [spareField, hread]
        -- an empty text cannot be read either, but it counts as absent
        by_cases htext : text = ""
        · rw [htext]
          exact .inl .empty
        · exact .inr ⟨⟨text, rfl, htext, hread⟩, rfl⟩
  · rintro (htaken | ⟨⟨text, rfl, -, hread⟩, rfl⟩)
    · cases htaken with
      | absent => rfl
      | empty =>
        have hblank : "".toList = [] := rfl
        rw [spareField, hblank, hempty, Option.getD_none]
      | value hread => rw [spareField, hread, Option.getD_some]
    · rw [spareField, hread, Option.getD_none]

end column

/-! ## One record

A record comes out as a bar if its first six columns can be read. The spare columns have no say in
this. -/

section record

variable {α : Type} [DecimalText α]

/-- The columns that have to be right read as the prices of a bar. -/
structure RequiredColumns (fields : List String) (bar : Bar α) : Prop where
  timestamp : ColumnReads Calendar.instant? fields 0 bar.timestamp
  opening : ColumnReads DecimalText.read? fields 1 bar.opening
  high : ColumnReads DecimalText.read? fields 2 bar.high
  low : ColumnReads DecimalText.read? fields 3 bar.low
  closing : ColumnReads DecimalText.read? fields 4 bar.closing
  volume : ColumnReads DecimalText.read? fields 5 bar.volume

theorem RequiredColumns.exists_columns {fields : List String} {bar : Bar α}
    (h : RequiredColumns fields bar) :
    ∃ timestamp opening high low closing volume spare,
      fields = timestamp :: opening :: high :: low :: closing :: volume :: spare := by
  obtain ⟨text, hvolume, -⟩ := h.volume
  match fields, hvolume with
  | timestamp :: opening :: high :: low :: closing :: volume :: spare, _ =>
    exact ⟨timestamp, opening, high, low, closing, volume, spare, rfl⟩

omit [DecimalText α] in
theorem instantField_eq_ok_iff {field : String} {instant : Int} :
    instantField (α := α) field = .ok instant ↔ Calendar.instant? field.toList = some instant := by
  unfold instantField
  cases Calendar.instant? field.toList <;> simp

theorem numberField_eq_ok_iff {record : Nat} {column field : String} {x : α} :
    numberField record column field = .ok x ↔ DecimalText.read? field.toList = some x := by
  unfold numberField
  cases (DecimalText.read? field.toList : Option α) <;> simp

theorem bind_eq_ok_iff {ε β γ : Type} {x : Except ε β} {f : β → Except ε γ} {c : γ} :
    (x >>= f) = .ok c ↔ ∃ b, x = .ok b ∧ f b = .ok c := by
  cases x <;> simp [bind, Except.bind]

variable [Scalar α]

/-- The spare columns count as they do: this is the reader's own account of them, and what it comes
to is another lemma. -/
structure SpareColumns (fields : List String) (bar : Bar α) : Prop where
  quoteVolume : spareField DecimalText.read? 0 fields[6]? = bar.quoteVolume
  tradeCount : spareField Decimal.readNat64? 0 fields[7]? = bar.tradeCount

theorem barOfRecord_eq_ok_iff {record : Nat} {fields : List String} {bar : Bar α} :
    barOfRecord record (some fields) = .ok bar ↔
      RequiredColumns fields bar ∧ SpareColumns fields bar ∧ bar.quality = .good := by
  constructor
  · intro hbar
    unfold barOfRecord at hbar
    split at hbar
    · rename_i hnone
      cases hnone
    · rename_i hsome
      cases hsome
      -- a chain of readings succeeds when each of them does
      simp only [bind_eq_ok_iff, instantField_eq_ok_iff, numberField_eq_ok_iff] at hbar
      obtain ⟨timestamp, htimestamp, opening, hopening, high, hhigh, low, hlow, closing, hclosing,
        volume, hvolume, hbar⟩ := hbar
      cases hbar
      exact ⟨⟨⟨_, rfl, htimestamp⟩, ⟨_, rfl, hopening⟩, ⟨_, rfl, hhigh⟩, ⟨_, rfl, hlow⟩,
        ⟨_, rfl, hclosing⟩, ⟨_, rfl, hvolume⟩⟩, ⟨rfl, rfl⟩, rfl⟩
    · cases hbar
  · rintro ⟨hrequired, hspare, hquality⟩
    obtain ⟨timestamp, opening, high, low, closing, volume, spare, rfl⟩ :=
      hrequired.exists_columns
    obtain ⟨_, ⟨⟩, htimestamp⟩ := hrequired.timestamp
    obtain ⟨_, ⟨⟩, hopening⟩ := hrequired.opening
    obtain ⟨_, ⟨⟩, hhigh⟩ := hrequired.high
    obtain ⟨_, ⟨⟩, hlow⟩ := hrequired.low
    obtain ⟨_, ⟨⟩, hclosing⟩ := hrequired.closing
    obtain ⟨_, ⟨⟩, hvolume⟩ := hrequired.volume
    have hquote : spareField DecimalText.read? 0 spare[0]? = bar.quoteVolume := hspare.quoteVolume
    have hcount : spareField Decimal.readNat64? 0 spare[1]? = bar.tradeCount := hspare.tradeCount
    simp only [barOfRecord, instantField_eq_ok_iff.mpr htimestamp,
      numberField_eq_ok_iff.mpr hopening, numberField_eq_ok_iff.mpr hhigh,
      numberField_eq_ok_iff.mpr hlow, numberField_eq_ok_iff.mpr hclosing,
      numberField_eq_ok_iff.mpr hvolume, hquote, hcount]
    cases bar
    cases hquality
    rfl

end record

/-! ## Whole tables

Record by record. That no record depends on another makes the statement about a table one about its
records. -/

section table

variable {α : Type} [DecimalText α] [Scalar α]

/-- A record comes out as a bar. -/
def RecordReads (record : Option (List String)) (bar : Bar α) : Prop :=
  ∃ fields, record = some fields ∧ RequiredColumns fields bar ∧ SpareColumns fields bar ∧
    bar.quality = .good

theorem barOfRecord_eq_ok_iff_recordReads {n : Nat} {record : Option (List String)} {bar : Bar α} :
    barOfRecord n record = .ok bar ↔ RecordReads record bar := by
  cases record with
  | none => exact ⟨nofun, fun ⟨_, hnone, _⟩ => nomatch hnone⟩
  | some fields =>
    rw [barOfRecord_eq_ok_iff]
    exact ⟨fun h => ⟨fields, rfl, h⟩, fun ⟨_, hfields, h⟩ => Option.some.inj hfields ▸ h⟩

/-- **A table comes out as bars record by record.** -/
theorem barsOfRecords_eq_ok_iff {n : Nat} {records : List (Option (List String))}
    {bars : List (Bar α)} :
    barsOfRecords n records = .ok bars ↔ List.Forall₂ RecordReads records bars := by
  induction records generalizing n bars with
  | nil =>
    rw [List.forall₂_nil_left_iff, barsOfRecords]
    exact ⟨fun h => (Except.ok.inj h).symm, fun h => h ▸ rfl⟩
  | cons record rest ih =>
    rw [List.forall₂_cons_left_iff, barsOfRecords]
    simp only [bind_eq_ok_iff, barOfRecord_eq_ok_iff_recordReads, ih]
    constructor
    · rintro ⟨bar, hbar, bars', hrest, heq⟩
      exact ⟨bar, bars', hbar, hrest, (Except.ok.inj heq).symm⟩
    · rintro ⟨bar, bars', hbar, hrest, rfl⟩
      exact ⟨bar, hbar, bars', hrest, rfl⟩

theorem exists_forall₂_recordReads_iff {records : List (Option (List String))} :
    (∃ bars : List (Bar α), List.Forall₂ RecordReads records bars) ↔
      ∀ record ∈ records, ∃ fields, ∃ bar : Bar α, record = some fields ∧
        RequiredColumns fields bar := by
  constructor
  · rintro ⟨bars, hbars⟩
    induction hbars with
    | nil => nofun
    | cons hbar _ ih =>
      obtain ⟨fields, rfl, hrequired, -⟩ := hbar
      exact List.forall_mem_cons.mpr ⟨⟨fields, _, rfl, hrequired⟩, ih⟩
  · intro h
    induction records with
    | nil => exact ⟨[], .nil⟩
    | cons record rest ih =>
      obtain ⟨⟨fields, bar, rfl, hrequired⟩, hrest⟩ := List.forall_mem_cons.mp h
      obtain ⟨bars, hbars⟩ := ih hrest
      -- whatever the spare columns count as, there is a bar with it
      let loaded : Bar α :=
        { bar with
          quoteVolume := spareField DecimalText.read? 0 fields[6]?
          tradeCount := spareField Decimal.readNat64? 0 fields[7]?
          quality := .good }
      have hloaded : RequiredColumns fields loaded :=
        ⟨hrequired.timestamp, hrequired.opening, hrequired.high, hrequired.low, hrequired.closing,
          hrequired.volume⟩
      exact ⟨loaded :: bars, .cons ⟨fields, rfl, hloaded, ⟨rfl, rfl⟩, rfl⟩ hbars⟩

end table

/-- **Spare columns default when they are malformed**, not only when they are absent or empty. A
table is loaded exactly if the required columns of all its records can be read. There is then one
bar for each record, and each of its spare columns is taken as it stands or, if it is malformed, is
zero all the same. -/
theorem spare_columns_default (bytes : List UInt8) :
    ((∃ bars, barsOfTable (α := Float) bytes = .ok bars) ↔
      ∀ record ∈ Table.records bytes, ∃ fields, ∃ bar : Bar Float, record = some fields ∧
        RequiredColumns fields bar) ∧
    ∀ bars : List (Bar Float), barsOfTable bytes = .ok bars ↔
      List.Forall₂ (fun record bar => ∃ fields, record = some fields ∧
        RequiredColumns fields bar ∧ bar.quality = .good ∧
        (Taken Decimal.readFloat? 0 fields[6]? bar.quoteVolume ∨
          Malformed Decimal.readFloat? fields[6]? ∧ bar.quoteVolume = 0) ∧
        (Taken Decimal.readNat64? 0 fields[7]? bar.tradeCount ∨
          Malformed Decimal.readNat64? fields[7]? ∧ bar.tradeCount = 0))
        (Table.records bytes) bars := by
  -- both readers refuse the empty text, which is what tells absent from malformed
  have hfloat : Decimal.readFloat? [] = none := by decide +kernel
  have hcount : Decimal.readNat64? [] = none := by decide +kernel
  constructor
  · simp only [barsOfTable, barsOfRecords_eq_ok_iff]
    exact exists_forall₂_recordReads_iff
  · intro bars
    rw [barsOfTable, barsOfRecords_eq_ok_iff]
    constructor
    · refine List.Forall₂.imp ?_
      rintro record bar ⟨fields, rfl, hrequired, hspare, hquality⟩
      exact ⟨fields, rfl, hrequired, hquality,
        (spareField_eq_iff hfloat _ _ _).mp hspare.quoteVolume,
        (spareField_eq_iff hcount _ _ _).mp hspare.tradeCount⟩
    · refine List.Forall₂.imp ?_
      rintro record bar ⟨fields, rfl, hrequired, hquality, hquote, htrades⟩
      exact ⟨fields, rfl, hrequired,
        ⟨(spareField_eq_iff hfloat _ _ _).mpr hquote, (spareField_eq_iff hcount _ _ _).mpr htrades⟩,
        hquality⟩

/-- A record that has minus forty trades. -/
def negativeCount : List String :=
  ["1705311000000", "100", "101", "99", "100.5", "12", "1206", "-40"]

/-- What is loaded of it. -/
def loadedCount : Bar Float :=
  { Bar.ofPrices 1705311000000 100 101 99 100.5 12 with quoteVolume := 1206, tradeCount := 0 }

/-- A count that is none is loaded as zero, although its column is neither absent nor empty. -/
theorem malformed_count_loaded :
    let table := utf8Bytes "timestamp,open,high,low,close,volume,quote_volume,trades_count\n" ++
      Table.lineOf (negativeCount.map utf8Bytes)
    Table.records table = [some negativeCount] ∧ barsOfTable table = .ok [loadedCount] ∧
      ¬Taken Decimal.readNat64? 0 negativeCount[7]? loadedCount.tradeCount := by
  intro table
  have hrecords : Table.records table = [some negativeCount] := by decide +kernel
  have hrequired : RequiredColumns negativeCount loadedCount :=
    ⟨⟨_, rfl, by decide +kernel⟩, ⟨_, rfl, by decide +kernel⟩, ⟨_, rfl, by decide +kernel⟩,
      ⟨_, rfl, by decide +kernel⟩, ⟨_, rfl, by decide +kernel⟩, ⟨_, rfl, by decide +kernel⟩⟩
  have hspare : SpareColumns negativeCount loadedCount := ⟨by decide +kernel, by decide +kernel⟩
  refine ⟨hrecords, ?_, ?_⟩
  · rw [barsOfTable, hrecords]
    exact barsOfRecords_eq_ok_iff.mpr (.cons ⟨_, rfl, hrequired, hspare, rfl⟩ .nil)
  · exact Malformed.not_taken ⟨"-40", rfl, by decide, by decide +kernel⟩

end MarketReplay
