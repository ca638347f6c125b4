import MarketReplay.Json.Value
import MarketReplay.Scalar
import MarketReplay.Width

/-!
# Records in JSON

A record is written as an object, its fields in a fixed order. It may be read from an object, whose
members stand in any order and may include unknown ones, or from a list of the fields in order.
`Fields` covers both: a field is asked for by its place and its name.

A field is read in one of three ways: it has to be there (`required`), a missing one has a value
all the same (`withDefault`), or it may be missing and may be null (`optional`). Lists are stricter
with the last kind: the place of an optional field has to be filled.
-/

set_option autoImplicit false

namespace MarketReplay.Json

variable {α β : Type}

/-! ## Writing

A scalar that is not finite has no literal, and is written as null. Reading it back fails then,
since a number is not read from null: what is written is faithful for finite numbers only. -/

/-- A number, and null for what no number literal can say. A record that is read back has lost such
a number, so records are faithful on finite ones. -/
def ofScalar [Scalar α] (x : α) : Json α := if Scalar.isFinite x then .real x else .null

def ofNat (n : Nat) : Json α := .int n

/-- A member that is left out when it has no value. -/
def ofOptional (name : String) (encode : β → Json α) : Option β → List (String × Json α)
  | some x => [(name, encode x)]
  | none => []

/-! ## Reading single values -/

def scalar? [Scalar α] : Json α → Option α
  | .real x => some x
  | .int n => some (Scalar.ofInt n)
  | _ => none

/-- A whole number within a range. This is where the widths of fields are enforced: behind it a
number is an integer without bounds. -/
def intWithin? (range : IntRange) : Json α → Option Int
  | .int n => if n ∈ range then some n else none
  | _ => none

def int64? : Json α → Option Int := intWithin? (.signed 64)

def nat64? (j : Json α) : Option Nat := (intWithin? (.unsigned 64) j).map Int.toNat

def nat32? (j : Json α) : Option Nat := (intWithin? (.unsigned 32) j).map Int.toNat

def bool? : Json α → Option Bool
  | .bool b => some b
  | _ => none

def list? (decode : Json α → Option β) : Json α → Option (List β)
  | .list items => items.mapM decode
  | _ => none

/-- The name of a case: a string, or an object with that name alone and null under it. Cases are
written as the first and read as either. -/
def caseName? : Json α → Option String
  | .string name => some name
  | .object [(name, .null)] => some name
  | _ => none

/-! ## Fields

How a record's fields are found. The decoders of records (`MarketReplay.Records`) are lists of such
questions, one for each field, and the lemmas about them are lemmas about the questions. -/

/-- The fields of a record, as members with names or as values in order. -/
inductive Fields (α : Type) where
  | named (members : List (String × Json α))
  | listed (items : List (Json α))

/-- The fields of a record of `count` fields; a longer list is refused. An object may have members
of other names, which are passed over. -/
def fields? (count : Nat) : Json α → Option (Fields α)
  | .object members => some (.named members)
  | .list items => if items.length ≤ count then some (.listed items) else none
  | _ => none

/-- The value found for a field: none if the field is named twice, `some none` if it is
missing. -/
def Fields.find? (f : Fields α) (place : Nat) (name : String) : Option (Option (Json α)) :=
  match f with
  | .named members =>
    match members.filter (·.1 == name) with
    | [] => some none
    | [m] => some (some m.2)
    | _ => none
  | .listed items => some items[place]?

/-- The value of a field that has to be there. -/
def Fields.required (f : Fields α) (place : Nat) (name : String)
    (decode : Json α → Option β) : Option β :=
  match f.find? place name with
  | some (some j) => decode j
  | _ => none

def Fields.withDefault (f : Fields α) (place : Nat) (name : String)
    (decode : Json α → Option β) (value : β) : Option β :=
  match f.find? place name with
  | some (some j) => decode j
  | some none => some value
  | none => none

/-- A value that may be null. -/
def orNull? (decode : Json α → Option β) : Json α → Option (Option β)
  | .null => some none
  | j => (decode j).map some

/-- The value of a field that may be missing or null. In a list nothing can be missing, since the
values behind would move up, so there it has to be null at least. -/
def Fields.optional (f : Fields α) (place : Nat) (name : String)
    (decode : Json α → Option β) : Option (Option β) :=
  match f with
  | .named _ => f.withDefault place name (orNull? decode) none
  | .listed _ => f.required place name (orNull? decode)

end MarketReplay.Json
