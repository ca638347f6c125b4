import MarketReplay.Loading.ExchangeRow

/-!
# The grammar of exchange rows

A row is a list of nine values or more. Eight of them matter, each in a column of its own
(`RowColumn`): the open time and the count of trades are 64-bit integers, the six others numbers or
texts of numbers. What stands between the columns and behind them is of no matter.

The grammar (`IsRow`), the bar that a row stands for (`RowReads`) and the fault of what is no row
(`RowFault`) are said here without the reader. **The reader keeps to them**
(`rowOutcome_barOfRow`): it gives the bar of a row, and of anything else the fault, which is that of
the first bad column. `ReadUpTo.column_then` is its step from one column to the next.
-/

set_option autoImplicit false

namespace MarketReplay

/-! ## Whole numbers

Which values the readers of integers take: integers of the document that are in their range. A
number with a point is none, even if it is whole. -/

namespace Json

variable {α : Type}

theorem intWithin?_eq_some_iff {range : IntRange} {j : Json α} {n : Int} :
    intWithin? range j = some n ↔ j = .int n ∧ n ∈ range := by
  cases j with
  | int k =>
    rw [intWithin?, Option.ite_none_right_eq_some, Option.some.injEq, Json.int.injEq, and_comm]
    exact and_congr_right fun h => h ▸ Iff.rfl
  | _ => exact ⟨nofun, fun ⟨h, _⟩ => nomatch h⟩

theorem nat64?_eq_some_iff {j : Json α} {n : Nat} :
    nat64? j = some n ↔ j = .int n ∧ (n : Int) ∈ IntRange.unsigned 64 := by
  rw [nat64?, Option.map_eq_some_iff]
  constructor
  · rintro ⟨k, hk, rfl⟩
    obtain ⟨rfl, hrange⟩ := intWithin?_eq_some_iff.mp hk
    have hcast : (k.toNat : Int) = k := Int.toNat_of_nonneg hrange.1
    rw [hcast]
    exact ⟨rfl, hrange⟩
  · rintro ⟨rfl, hrange⟩
    exact ⟨n, intWithin?_eq_some_iff.mpr ⟨rfl, hrange⟩, Int.toNat_natCast n⟩

end Json

section grammar

variable {α : Type} [Scalar α] [DecimalText α]

/-! ## Columns

One description of a column, for all eight: its place, its name, what may stand in it and what is
wrong otherwise. The reader has a line of code for each instead. -/

/-- A value that spells a number: the number, or a text of it. Exchanges send prices as texts, lest
they be rounded on the way. -/
inductive SpellsNumber : Json α → α → Prop
  | real (x : α) : SpellsNumber (.real x) x
  | int (n : Int) : SpellsNumber (.int n) (Scalar.ofInt n)
  | text {s : String} {x : α} (h : DecimalText.read? s.toList = some x) :
    SpellsNumber (.string s) x

theorem SpellsNumber.unique {j : Json α} {x y : α} (hx : SpellsNumber j x)
    (hy : SpellsNumber j y) : x = y := by
  cases hx with
  | real => cases hy; rfl
  | int => cases hy; rfl
  | text hread =>
    cases hy with
    | text hread' => exact Option.some.inj (hread.symm.trans hread')

/-- What is wrong with a value that spells no number. -/
def numberProblem (field : String) : Json α → RowProblem
  | .string text => .notANumber field text
  | _ => .wrongKind field

/-- The columns of a row that matter. A row has more of them, and what stands there may be
anything. -/
inductive RowColumn where
  | openTime
  | opening
  | high
  | low
  | closing
  | volume
  | quoteVolume
  | tradeCount
deriving DecidableEq, Repr

namespace RowColumn

/-- The columns in the order in which they are looked at. -/
def inOrder : List RowColumn :=
  [openTime, opening, high, low, closing, volume, quoteVolume, tradeCount]

/-- Where a column stands in a row. The close time has the sixth place. -/
def place : RowColumn → Nat
  | openTime => 0
  | opening => 1
  | high => 2
  | low => 3
  | closing => 4
  | volume => 5
  | quoteVolume => 7
  | tradeCount => 8

/-- What a column is called in a complaint. -/
def name : RowColumn → String
  | openTime => "open time"
  | opening => "open"
  | high => "high"
  | low => "low"
  | closing => "close"
  | volume => "volume"
  | quoteVolume => "quote volume"
  | tradeCount => "trade count"

/-- The columns that are no whole numbers. -/
def IsNumber : RowColumn → Prop
  | openTime => False
  | tradeCount => False
  | _ => True

/-- What may stand in a column. The two columns of whole numbers take no texts and no number with a
point. -/
def Admits : RowColumn → Json α → Prop
  | openTime, j => ∃ n ∈ IntRange.signed 64, j = .int n
  | tradeCount, j => ∃ n ∈ IntRange.unsigned 64, j = .int n
  | _, j => ∃ x, SpellsNumber j x

/-- What is wrong with a value that may not stand in a column. -/
def problem : RowColumn → Json α → RowProblem
  | openTime, _ => .openTime
  | tradeCount, _ => .tradeCount
  | column, j => numberProblem column.name j

/-- A row has in a column what may stand there. -/
def HoldsIn (column : RowColumn) (fields : List (Json α)) : Prop :=
  ∃ j, fields[column.place]? = some j ∧ column.Admits j

/-- A row has a number in a column. -/
def Spells (column : RowColumn) (fields : List (Json α)) (x : α) : Prop :=
  ∃ j, fields[column.place]? = some j ∧ SpellsNumber j x

theorem Spells.unique {column : RowColumn} {fields : List (Json α)} {x y : α}
    (hx : column.Spells fields x) (hy : column.Spells fields y) : x = y := by
  obtain ⟨j, hj, hx⟩ := hx
  obtain ⟨j', hj', hy⟩ := hy
  cases hj.symm.trans hj'
  exact hx.unique hy

theorem admits_iff {column : RowColumn} (h : column.IsNumber) (j : Json α) :
    column.Admits j ↔ ∃ x, SpellsNumber j x := by
  cases column <;> first | exact h.elim | exact Iff.rfl

omit [Scalar α] [DecimalText α] in
theorem problem_eq {column : RowColumn} (h : column.IsNumber) (j : Json α) :
    column.problem j = numberProblem column.name j := by
  cases column <;> first | exact h.elim | rfl

theorem Spells.holdsIn {column : RowColumn} {fields : List (Json α)} {x : α}
    (h : column.Spells fields x) (hnumber : column.IsNumber) : column.HoldsIn fields := by
  obtain ⟨j, hj, hx⟩ := h
  exact ⟨j, hj, (admits_iff hnumber j).mpr ⟨x, hx⟩⟩

omit [Scalar α] [DecimalText α] in
/-- **A complaint about a column starts with its name.** -/
theorem exists_message_problem (column : RowColumn) (j : Json α) :
    ∃ complaint, (column.problem j).message = column.name ++ complaint := by
  have hnumber (field : String) :
      ∃ complaint, (numberProblem field j).message = field ++ complaint := by
    cases j with
    | string text => exact ⟨" is not a number: " ++ Text.quoted text, String.append_assoc⟩
    | _ => exact ⟨" has unexpected type", rfl⟩
  cases column with
  | openTime => exact ⟨" is not an integer", rfl⟩
  | tradeCount => exact ⟨" is not an integer", rfl⟩
  | _ => exact hnumber _

end RowColumn

/-! ## Rows

Which lists are rows and for which bar they stand. The fault of a list that is none is determined by
it as well. -/

/-- A row: a list that is long enough and has in every column what may stand there. It says nothing
of the bar, and is what a fault denies. -/
def IsRow (row : Json α) : Prop :=
  ∃ fields, row = .list fields ∧ rowFields ≤ fields.length ∧
    ∀ column : RowColumn, column.HoldsIn fields

/-- The columns of a row stand for a bar. A row has no quality, and every bar that comes from one is
good. -/
structure FieldsRead (fields : List (Json α)) (bar : Bar α) : Prop where
  openTime : fields[RowColumn.openTime.place]? = some (.int bar.timestamp)
  openTime_mem : bar.timestamp ∈ IntRange.signed 64
  opening : RowColumn.opening.Spells fields bar.opening
  high : RowColumn.high.Spells fields bar.high
  low : RowColumn.low.Spells fields bar.low
  closing : RowColumn.closing.Spells fields bar.closing
  volume : RowColumn.volume.Spells fields bar.volume
  quoteVolume : RowColumn.quoteVolume.Spells fields bar.quoteVolume
  tradeCount : fields[RowColumn.tradeCount.place]? = some (.int bar.tradeCount)
  tradeCount_mem : (bar.tradeCount : Int) ∈ IntRange.unsigned 64
  quality : bar.quality = .good

/-- A row stands for a bar. -/
def RowReads (row : Json α) (bar : Bar α) : Prop :=
  ∃ fields, row = .list fields ∧ FieldsRead fields bar

/-- The fault of what is no row: it is no list, or too short, or there is a first column that does
not admit what stands in it. The columns are looked at in the order of the row, so that the first
bad one is the one complained about. -/
inductive RowFault : Json α → RowProblem → Prop
  | notAList {j : Json α} (h : ∀ fields, j ≠ .list fields) : RowFault j .notAList
  | short {fields : List (Json α)} (h : fields.length < rowFields) :
    RowFault (.list fields) (.tooFewFields fields.length)
  | column {fields : List (Json α)} {before after : List RowColumn} {column : RowColumn}
    {j : Json α} (hlong : rowFields ≤ fields.length)
    (horder : RowColumn.inOrder = before ++ column :: after)
    (hbefore : ∀ earlier ∈ before, earlier.HoldsIn fields)
    (hplace : fields[column.place]? = some j) (hbad : ¬column.Admits j) :
    RowFault (.list fields) (column.problem j)

theorem FieldsRead.holdsIn {fields : List (Json α)} {bar : Bar α} (h : FieldsRead fields bar)
    (column : RowColumn) : column.HoldsIn fields := by
  cases column with
  | openTime => exact ⟨_, h.openTime, _, h.openTime_mem, rfl⟩
  | opening => exact h.opening.holdsIn trivial
  | high => exact h.high.holdsIn trivial
  | low => exact h.low.holdsIn trivial
  | closing => exact h.closing.holdsIn trivial
  | volume => exact h.volume.holdsIn trivial
  | quoteVolume => exact h.quoteVolume.holdsIn trivial
  | tradeCount => exact ⟨_, h.tradeCount, _, h.tradeCount_mem, rfl⟩

theorem RowReads.isRow {row : Json α} {bar : Bar α} (h : RowReads row bar) : IsRow row := by
  obtain ⟨fields, rfl, hread⟩ := h
  have hlast : 8 < fields.length := (List.getElem?_eq_some_iff.mp hread.tradeCount).1
  exact ⟨fields, rfl, hlast, hread.holdsIn⟩

/-- **A row stands for one bar only.** -/
theorem RowReads.unique {row : Json α} {bar bar' : Bar α} (h : RowReads row bar)
    (h' : RowReads row bar') : bar = bar' := by
  obtain ⟨fields, rfl, hread⟩ := h
  obtain ⟨_, ⟨⟩, hread'⟩ := h'
  have htime := Json.int.inj (Option.some.inj (hread.openTime.symm.trans hread'.openTime))
  have hcount := Json.int.inj (Option.some.inj (hread.tradeCount.symm.trans hread'.tradeCount))
  have hquality := hread.quality.trans hread'.quality.symm
  have hopening := hread.opening.unique hread'.opening
  have hhigh := hread.high.unique hread'.high
  have hlow := hread.low.unique hread'.low
  have hclosing := hread.closing.unique hread'.closing
  have hvolume := hread.volume.unique hread'.volume
  have hquote := hread.quoteVolume.unique hread'.quoteVolume
  cases bar
  cases bar'
  simp only [Bar.mk.injEq]
  exact ⟨htime, hopening, hhigh, hlow, hclosing, hvolume, hquote, Int.ofNat.inj hcount, hquality⟩

theorem RowFault.not_isRow {row : Json α} {problem : RowProblem} (h : RowFault row problem) :
    ¬IsRow row := by
  rintro ⟨fields, rfl, hlong, hholds⟩
  cases h with
  | notAList hne => exact hne fields rfl
  | short hshort => exact Nat.not_lt.mpr hlong hshort
  | column _ _ _ hplace hbad =>
    obtain ⟨j, hj, hadmits⟩ := hholds _
    cases hplace.symm.trans hj
    exact hbad hadmits

/-! ## The reader, column by column

The reader is a chain of eight readings. The invariant between two of them is that all columns so
far are right. -/

/-- What the reading of a column has to answer: what is right for the value in it, or what is wrong
with it. What is right differs between columns that hold integers and those that hold numbers. -/
def ColumnOutcome {β : Type} (column : RowColumn) (j : Json α) (IsRight : β → Prop) :
    Except RowProblem β → Prop
  | .ok x => column.Admits j ∧ IsRight x
  | .error problem => ¬column.Admits j ∧ problem = column.problem j

theorem columnOutcome_openTime (j : Json α) :
    ColumnOutcome .openTime j (fun n => j = .int n ∧ n ∈ IntRange.signed 64)
      (orProblem .openTime (Json.int64? j)) := by
  cases hread : Json.int64? j with
  | some n =>
    obtain ⟨hj, hn⟩ := Json.intWithin?_eq_some_iff.mp hread
    exact ⟨⟨n, hn, hj⟩, hj, hn⟩
  | none =>
    refine ⟨?_, rfl⟩
    rintro ⟨n, hn, hj⟩
    cases hread.symm.trans (Json.intWithin?_eq_some_iff.mpr ⟨hj, hn⟩)

theorem columnOutcome_tradeCount (j : Json α) :
    ColumnOutcome .tradeCount j (fun n => j = .int (n : Nat) ∧ (n : Int) ∈ IntRange.unsigned 64)
      (orProblem .tradeCount (Json.nat64? j)) := by
  cases hread : Json.nat64? j with
  | some n =>
    obtain ⟨hj, hn⟩ := Json.nat64?_eq_some_iff.mp hread
    exact ⟨⟨n, hn, hj⟩, hj, hn⟩
  | none =>
    refine ⟨?_, rfl⟩
    rintro ⟨n, hn, hj⟩
    have hcast : (n.toNat : Int) = n := Int.toNat_of_nonneg hn.1
    rw [← hcast] at hj hn
    cases hread.symm.trans (Json.nat64?_eq_some_iff.mpr ⟨hj, hn⟩)

theorem columnOutcome_number (column : RowColumn) (h : column.IsNumber) (j : Json α) :
    ColumnOutcome column j (SpellsNumber j) (rowNumber column.name j) := by
  have hright {x : α} (hx : SpellsNumber j x) : column.Admits j ∧ SpellsNumber j x :=
    ⟨(RowColumn.admits_iff h j).mpr ⟨x, hx⟩, hx⟩
  have hwrong (hnone : ¬∃ x, SpellsNumber j x) :
      ¬column.Admits j ∧ numberProblem column.name j = column.problem j :=
    ⟨mt (RowColumn.admits_iff h j).mp hnone, (RowColumn.problem_eq h j).symm⟩
  -- a text is read or is no number; any other value is of the right kind or not
  cases j with
  | real x => exact hright (.real x)
  | int n => exact hright (.int n)
  | string text =>
    cases hread : (DecimalText.read? text.toList : Option α) with
    | some x =>
      rw [rowNumber, hread]
      exact hright (.text hread)
    | none =>
      rw [rowNumber, hread]
      refine hwrong ?_
      rintro ⟨x, hx⟩
      cases hx with
      | text hx => cases hread.symm.trans hx
  | _ => exact hwrong nofun

/-- What a reader of rows has to answer: for every row one of the two, so that it refuses nothing
that is a row and takes nothing that is none. -/
def RowOutcome (row : Json α) : Except RowProblem (Bar α) → Prop
  | .ok bar => RowReads row bar
  | .error problem => RowFault row problem

/-- A row is long enough, and some of its columns have been found right. This is what a reader knows
between two columns, and what makes a fault the first one. -/
structure ReadUpTo (fields : List (Json α)) (before after : List RowColumn) : Prop where
  long : rowFields ≤ fields.length
  order : RowColumn.inOrder = before ++ after
  holds : ∀ column ∈ before, column.HoldsIn fields

/-- **A column is read**: it is right, and the reader goes on behind it, or it is the first bad one
and the fault of the row. -/
theorem ReadUpTo.column_then {β : Type} {fields : List (Json α)} {before after : List RowColumn}
    {column : RowColumn} {j : Json α} {IsRight : β → Prop} {read : Except RowProblem β}
    {rest : β → Except RowProblem (Bar α)} (h : ReadUpTo fields before (column :: after))
    (hplace : fields[column.place]? = some j) (hread : ColumnOutcome column j IsRight read)
    (hrest : ∀ x, IsRight x → ReadUpTo fields (before ++ [column]) after →
      RowOutcome (.list fields) (rest x)) :
    RowOutcome (.list fields) (read >>= rest) := by
  cases read with
  | ok x =>
    obtain ⟨hadmits, hright⟩ := hread
    refine hrest x hright ⟨h.long, h.order.trans (List.append_cons ..), ?_⟩
    -- the columns so far and the one that was just read
    intro c hc
    rcases List.mem_append.mp hc with hc | hc
    · exact h.holds c hc
    · rw [List.mem_singleton.mp hc]
      exact ⟨j, hplace, hadmits⟩
  | error problem =>
    obtain ⟨hbad, rfl⟩ := hread
    exact .column h.long h.order h.holds hplace hbad

/-- **The reader of rows keeps to the grammar**: it gives the bar of a row, and the fault of
anything else. -/
theorem rowOutcome_barOfRow (row : Json α) : RowOutcome row (barOfRow row) := by
  unfold barOfRow
  split
  · rename_i j0 j1 j2 j3 j4 j5 j6 j7 j8 rest
    have h : ReadUpTo (j0 :: j1 :: j2 :: j3 :: j4 :: j5 :: j6 :: j7 :: j8 :: rest) []
        RowColumn.inOrder := ⟨Nat.le_add_left 9 rest.length, rfl, nofun⟩
    refine h.column_then rfl (columnOutcome_openTime j0) ?_
    rintro timestamp ⟨rfl, htimestamp⟩ h
    refine h.column_then rfl (columnOutcome_number .opening trivial j1) fun opening hopening h => ?_
    refine h.column_then rfl (columnOutcome_number .high trivial j2) fun high hhigh h => ?_
    refine h.column_then rfl (columnOutcome_number .low trivial j3) fun low hlow h => ?_
    refine h.column_then rfl (columnOutcome_number .closing trivial j4) fun closing hclosing h => ?_
    refine h.column_then rfl (columnOutcome_number .volume trivial j5) fun volume hvolume h => ?_
    refine h.column_then rfl (columnOutcome_number .quoteVolume trivial j7) fun quote hquote h => ?_
    refine h.column_then rfl (columnOutcome_tradeCount j8) ?_
    rintro count ⟨rfl, hcount⟩ -
    exact ⟨_, rfl, rfl, htimestamp, ⟨_, rfl, hopening⟩, ⟨_, rfl, hhigh⟩, ⟨_, rfl, hlow⟩,
      ⟨_, rfl, hclosing⟩, ⟨_, rfl, hvolume⟩, ⟨_, rfl, hquote⟩, rfl, hcount, rfl⟩
  · rename_i fields hshape
    refine .short (Nat.lt_of_not_le fun hlong => ?_)
    -- nine fields or more have the shape of the first case
    match fields, hlong, hshape with
    | _ :: _ :: _ :: _ :: _ :: _ :: _ :: _ :: _ :: rest, _, hshape =>
      exact hshape _ _ _ _ _ _ _ _ _ rest rfl
  · rename_i hlist
    exact .notAList hlist

end grammar

end MarketReplay
