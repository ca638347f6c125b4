import MarketReplay.Loading.BarDocument
import MarketReplay.Loading.BarTable
import MarketReplay.Proofs.Decimal.Integer
import MarketReplay.Proofs.Loading.Lines
import MarketReplay.Proofs.Records.RoundTrip

/-!
# Bars in three formats

A series of bars can be kept as a document of records, as a document of exchange rows, or as a
table. The three have their columns in different places and their numbers in different spellings,
and each has a reader of its own.

**`formats_agree`: whichever format good bars are written in, they are read as the same bars.** The
texts of numbers may come from any printer that the reader of numbers undoes (`Printed`); what this
library does itself, the integers and the lines, is proved.

For each format there is a lemma about one bar, and from it by induction one about a series. What a
bar has to be for this is the same for all formats (`Bar.Portable`), so that the last theorem only
puts the three together.
-/

set_option autoImplicit false

namespace MarketReplay

variable {α : Type} [Scalar α] [DecimalText α]

/-! ## Bars that every format can hold

The strictest format is the table: it has no place for a quality, and its fields have no commas or
blanks. -/

/-- A finite number with a text that reads back as it, and that can stand as a field in a line. How
the text is made is left open, so that the theorem holds of every printer that is faithful. -/
structure Printed (print : α → String) (x : α) : Prop where
  finite : Scalar.isFinite x = true
  read : DecimalText.read? (print x).toList = some x
  plain : Table.IsPlain (print x)

/-- A bar that every format can hold: its numbers are printed, it is good, and its timestamp is not
so near to zero that it counts as seconds. The least 64-bit integer has no magnitude of 64 bits and
is left out. -/
structure Bar.Portable (print : α → String) (b : Bar α) : Prop where
  notSeconds : Calendar.secondsCutoff ≤ b.timestamp.natAbs
  magnitude : b.timestamp.natAbs < twoTo 63
  opening : Printed print b.opening
  high : Printed print b.high
  low : Printed print b.low
  closing : Printed print b.closing
  volume : Printed print b.volume
  quoteVolume : Printed print b.quoteVolume
  tradeCount : (b.tradeCount : Int) ∈ IntRange.unsigned 64
  quality : b.quality = .good

namespace Bar.Portable

variable {print : α → String} {b : Bar α} (h : b.Portable print)

include h

/-- The magnitude of a timestamp is an integer of 64 bits too, which is why the least of them is
left out: the reader of timestamps compares magnitudes. -/
theorem natAbs_mem : (b.timestamp.natAbs : Int) ∈ IntRange.signed 64 := by
  have hmagnitude := h.magnitude
  have htwo : twoTo 63 = 9223372036854775808 := by decide
  have hrange : IntRange.signed 64 = ⟨-9223372036854775808, 9223372036854775807⟩ := by decide
  rw [hrange, IntRange.mem_iff]
  simp only
  omega

theorem timestamp_mem : b.timestamp ∈ IntRange.signed 64 := by
  obtain ⟨-, hhigh⟩ := h.natAbs_mem
  have hrange : IntRange.signed 64 = ⟨-9223372036854775808, 9223372036854775807⟩ := by decide
  rw [hrange] at hhigh
  rw [hrange, IntRange.mem_iff]
  simp only at hhigh ⊢
  omega

theorem storable : b.Storable where
  timestamp := h.timestamp_mem
  opening := h.opening.finite
  high := h.high.finite
  low := h.low.finite
  closing := h.closing.finite
  volume := h.volume.finite
  quoteVolume := h.quoteVolume.finite
  tradeCount := h.tradeCount

end Bar.Portable

/-! ## Exchange rows

The columns of an exchange that a bar has nothing to do with may hold anything. -/

/-- The row of a bar, with any close time and any further columns. Prices and volumes are texts, as
exchanges write them, and the timestamp and the count of trades are integers. -/
def Bar.exchangeRow (print : α → String) (b : Bar α) (closeTime : Json α)
    (further : List (Json α)) : Json α :=
  .list (.int b.timestamp :: .string (print b.opening) :: .string (print b.high)
    :: .string (print b.low) :: .string (print b.closing) :: .string (print b.volume) :: closeTime
    :: .string (print b.quoteVolume) :: .int b.tradeCount :: further)

theorem rowNumber_print {print : α → String} {x : α} (h : Printed print x) (field : String) :
    rowNumber field (.string (print x)) = .ok x := by
  simp only [rowNumber, h.read]

theorem barOfRow_exchangeRow {print : α → String} {b : Bar α} (h : b.Portable print)
    (closeTime : Json α) (further : List (Json α)) :
    barOfRow (b.exchangeRow print closeTime further) = .ok b := by
  have hquality := h.quality
  have htime : Json.int64? (α := α) (.int b.timestamp) = some b.timestamp :=
    Json.int64?_int h.timestamp_mem
  have hcount : Json.nat64? (α := α) (.int b.tradeCount) = some b.tradeCount :=
    Json.nat64?_ofNat h.tradeCount
  simp only [Bar.exchangeRow, barOfRow, htime, hcount, orProblem, rowNumber_print h.opening,
    rowNumber_print h.high, rowNumber_print h.low, rowNumber_print h.closing,
    rowNumber_print h.volume, rowNumber_print h.quoteVolume]
  cases b
  cases hquality
  rfl

/-- The rows of bars, each with a close time and further columns of its own. Nothing is asked of
these, since they are not read. -/
def ExchangeRows (print : α → String) : List (Bar α) → List (Json α) → Prop :=
  List.Forall₂ fun b row => ∃ closeTime further, row = b.exchangeRow print closeTime further

theorem barsOfRowsFrom_exchangeRows {print : α → String} {bars : List (Bar α)}
    {rows : List (Json α)} (hbars : ∀ b ∈ bars, b.Portable print)
    (hrows : ExchangeRows print bars rows) (index : Nat) :
    barsOfRowsFrom index rows = .ok bars := by
  induction hrows generalizing index with
  | nil => rfl
  | cons hrow _ ih =>
    obtain ⟨closeTime, further, rfl⟩ := hrow
    obtain ⟨hb, hrest⟩ := List.forall_mem_cons.mp hbars
    rw [barsOfRowsFrom, barOfRow_exchangeRow hb]
    simp only [ih hrest]
    rfl

theorem barsOfDocument_exchangeRows {print : α → String} {bars : List (Bar α)}
    {rows : List (Json α)} (hbars : ∀ b ∈ bars, b.Portable print)
    (hrows : ExchangeRows print bars rows) : barsOfDocument (.list rows) = .ok bars := by
  have hread := barsOfRowsFrom_exchangeRows hbars hrows 0
  cases hrows with
  | nil => rfl
  | cons hrow _ =>
    -- the first element is a list, which makes the document one of rows
    obtain ⟨closeTime, further, rfl⟩ := hrow
    exact hread

/-! ## Records

Their members may stand in any order, at every depth, which the records of bars share with all
others. -/

theorem barsOfDocument_records {print : α → String} {bars : List (Bar α)} {records : List (Json α)}
    (hbars : ∀ b ∈ bars, b.Portable print)
    (hrecords : List.Forall₂ (fun b j => Json.Rearranged b.toJson j) bars records) :
    barsOfDocument (.list records) = .ok bars := by
  have hread : records.mapM Bar.ofJson? = some bars := by
    have hwritten : Json.list? Bar.ofJson? (.list (bars.map Bar.toJson)) = some bars :=
      Json.list?_map fun b hb => Bar.faithful.read_written b (hbars b hb).storable
    exact (Bar.orderFree_ofJson?.list?
      (.list (List.forall₂_map_left_iff.mpr hrecords))).symm.trans hwritten
  cases hrecords with
  | nil => rfl
  | cons hrecord _ =>
    -- the first element is an object, which makes the document one of records
    cases hrecord with
    | refl => simp only [barsOfDocument, Bar.toJson] at hread ⊢; rw [hread]
    | object => simp only [barsOfDocument, hread]

/-! ## Tables

A line of a table is read field by field. What makes the fields come out as they were written is
proved where lines are. -/

/-- The fields of the line of a bar. -/
def Bar.line (print : α → String) (b : Bar α) : List String :=
  [toString b.timestamp, print b.opening, print b.high, print b.low, print b.closing,
    print b.volume, print b.quoteVolume, toString b.tradeCount]

theorem isPlain_toString (n : Int) : Table.IsPlain (toString n) := by
  intro c hc
  rcases Bool.or_eq_true_iff.mp (Decimal.isIntegral_toString hc) with hminus | hdigit
  · rw [beq_iff_eq.mp hminus]
    decide
  · refine ⟨?_, ?_, Text.isBlank_of_isDigit hdigit⟩
    · rintro rfl
      exact absurd hdigit (by decide)
    · rintro rfl
      exact absurd hdigit (by decide)

theorem Bar.isLine_line {print : α → String} {b : Bar α} (h : b.Portable print) :
    Table.IsLine (b.line print) where
  headed := ⟨_, _, rfl,
    fun hempty => Decimal.toList_toString_ne_nil b.timestamp (by rw [hempty]; rfl)⟩
  plain := by
    intro field hfield
    simp only [Bar.line, List.mem_cons, List.not_mem_nil, or_false] at hfield
    rcases hfield with rfl | rfl | rfl | rfl | rfl | rfl | rfl | rfl
    · exact isPlain_toString b.timestamp
    · exact h.opening.plain
    · exact h.high.plain
    · exact h.low.plain
    · exact h.closing.plain
    · exact h.volume.plain
    · exact h.quoteVolume.plain
    · exact isPlain_toString (b.tradeCount : Int)

theorem numberField_print {print : α → String} {x : α} (h : Printed print x) (record : Nat)
    (column : String) : numberField record column (print x) = .ok x := by
  simp only [numberField, h.read]

theorem instantField_toString {print : α → String} {b : Bar α} (h : b.Portable print) :
    instantField (α := α) (toString b.timestamp) = .ok b.timestamp := by
  have hread : Decimal.readInt64? (toString b.timestamp).toList = some b.timestamp :=
    Decimal.readInt?_repr h.timestamp_mem
  have hinstant : Calendar.instant? (toString b.timestamp).toList = some b.timestamp := by
    rw [Calendar.instant?, Text.trim_eq_self fun c hc => (isPlain_toString b.timestamp c hc).2.2,
      Calendar.trimmedInstant?, hread]
    have hlarge : ¬inWord b.timestamp.natAbs < Calendar.secondsCutoff := by
      rw [inWord_of_mem h.natAbs_mem]
      exact Int.not_lt.mpr (Int.ofNat_le.mpr h.notSeconds)
    exact congrArg some (if_neg hlarge)
  simp only [instantField, hinstant]

theorem barOfRecord_line {print : α → String} {b : Bar α} (h : b.Portable print) (record : Nat) :
    barOfRecord record (some (b.line print)) = .ok b := by
  have hquality := h.quality
  have hcount : Decimal.readNat64? (toString b.tradeCount).toList = some b.tradeCount :=
    Decimal.readNat64?_repr h.tradeCount
  simp only [Bar.line, barOfRecord, instantField_toString h, numberField_print h.opening,
    numberField_print h.high, numberField_print h.low, numberField_print h.closing,
    numberField_print h.volume, spareField, List.getElem?_cons_zero, List.getElem?_cons_succ,
    h.quoteVolume.read, hcount, Option.getD_some]
  cases b
  cases hquality
  rfl

theorem barsOfRecords_lines {print : α → String} {bars : List (Bar α)}
    (hbars : ∀ b ∈ bars, b.Portable print) (record : Nat) :
    barsOfRecords record (bars.map fun b => some (b.line print)) = .ok bars := by
  induction bars generalizing record with
  | nil => rfl
  | cons b bars ih =>
    obtain ⟨hb, hrest⟩ := List.forall_mem_cons.mp hbars
    rw [List.map_cons, barsOfRecords, barOfRecord_line hb, ih hrest]
    rfl

theorem barsOfTable_lines {print : α → String} {bars : List (Bar α)}
    {heading ends final : List UInt8} (hbars : ∀ b ∈ bars, b.Portable print)
    (hheading : Table.IsHeading heading) (hends : Table.IsLineEnd ends)
    (hfinal : ∀ b ∈ final, Table.isLineEnd b = true) :
    barsOfTable (Table.tableOf heading ends (bars.map (Bar.line print)) final) = .ok bars := by
  have hlines : ∀ row ∈ bars.map (Bar.line print), Table.IsLine row := by
    intro row hrow
    obtain ⟨b, hb, rfl⟩ := List.mem_map.mp hrow
    exact Bar.isLine_line (hbars b hb)
  rw [barsOfTable, Table.records_tableOf hheading hends hfinal hlines, List.map_map]
  exact barsOfRecords_lines hbars 1

/-- **The formats agree.** Bars that every format can hold are read as they were written: from
records, with their members in any order, from exchange rows, and from the lines of a table. -/
theorem formats_agree (print : α → String) (bars : List (Bar α))
    (hbars : ∀ b ∈ bars, b.Portable print) :
    (∀ records, List.Forall₂ (fun b j => Json.Rearranged b.toJson j) bars records →
      barsOfDocument (.list records) = .ok bars) ∧
    (∀ rows, ExchangeRows print bars rows → barsOfDocument (.list rows) = .ok bars) ∧
    ∀ heading ends final, Table.IsHeading heading → Table.IsLineEnd ends →
      (∀ b ∈ final, Table.isLineEnd b = true) →
      barsOfTable (Table.tableOf heading ends (bars.map (Bar.line print)) final) = .ok bars :=
  ⟨fun _ => barsOfDocument_records hbars, fun _ => barsOfDocument_exchangeRows hbars,
    fun _ _ _ => barsOfTable_lines hbars⟩

/-! ## A sample -/

section decidable

variable [DecidableEq α] (print : α → String)

instance (field : String) : Decidable (Table.IsPlain field) :=
  List.decidableBAll (fun c => c ≠ ',' ∧ c ≠ '"' ∧ Text.isBlank c = false) field.toList

instance (x : α) : Decidable (Printed print x) :=
  decidable_of_iff
    (Scalar.isFinite x = true ∧ DecimalText.read? (print x).toList = some x ∧
      Table.IsPlain (print x))
    ⟨fun ⟨finite, read, plain⟩ => ⟨finite, read, plain⟩, fun h => ⟨h.finite, h.read, h.plain⟩⟩

end decidable

/-- Two bars, one long before 1970, with numbers that are not whole. -/
def oldAndNew : List (Bar Float) := [
  { Bar.ofPrices (-1700000000000) 0.1 0.5 0.1 0.25 12.5 with quoteVolume := 3.1, tradeCount := 7 },
  { Bar.ofPrices 1705311000000 42000.1 42100 41950.5 42050 1e-7 with
    quoteVolume := 0.0042, tradeCount := 18446744073709551615 }]

theorem formats_agree_sample :
    let print := Decimal.Layout.message.write
    barsOfDocument (.list (oldAndNew.map Bar.toJson)) = .ok oldAndNew ∧
      barsOfDocument (.list (oldAndNew.map fun b => b.exchangeRow print .null [.bool true])) =
        .ok oldAndNew ∧
      barsOfTable (Table.tableOf (utf8Bytes "timestamp,open,high,low,close,volume") [13, 10]
        (oldAndNew.map (Bar.line print)) []) = .ok oldAndNew := by
  intro print
  have hportable : ∀ b ∈ oldAndNew, b.Portable print := by
    intro b hb
    simp only [oldAndNew, List.mem_cons, List.not_mem_nil, or_false] at hb
    rcases hb with rfl | rfl <;> constructor <;> decide +kernel
  obtain ⟨hrecords, hrows, htable⟩ := formats_agree print oldAndNew hportable
  refine ⟨hrecords _ ?_, hrows _ ?_, htable _ _ _ ?_ ?_ nofun⟩
  · exact List.forall₂_map_right_iff.mpr (List.forall₂_same.mpr fun b _ => .refl _)
  · exact List.forall₂_map_right_iff.mpr (List.forall₂_same.mpr fun b _ => ⟨_, _, rfl⟩)
  · decide +kernel
  · exact ⟨nofun, List.all_eq_true.mp rfl⟩

end MarketReplay
