import MarketReplay.Text.Blank

/-!
# Tables in text

A table is a sequence of records, each a sequence of fields. Commas end fields and line ends end
records; lines without any character are no records. A field that starts with a quote runs to the
next single quote, over commas and line ends, and a doubled quote in it stands for one; what follows
the closing quote belongs to the field too. A quote further inside a field is an ordinary character.

The text is split as bytes, because only the records that are looked at need to be valid text. In
the program an outside library does the splitting, with records of any length allowed and blanks
trimmed; this is its documented behaviour as one recursion along the bytes. What is proved about
tables of bars is proved for any list of records.
-/

set_option autoImplicit false

namespace MarketReplay.Table

def comma : UInt8 := 44
def quote : UInt8 := 34

def isLineEnd (b : UInt8) : Bool := b == 10 || b == 13

/-- Where in a record the next byte stands. A quote opens a quoted field only at the start of a
field, so that place has to be kept apart from the inside of one; and an empty line is told from a
record with one empty field by the start of a record. -/
inductive Place where
  /-- Before the first byte of a record. -/
  | recordStart
  /-- Just after a comma. -/
  | fieldStart
  | unquoted
  | quoted
  /-- After a quote inside a quoted field, which either closes it or is half of a double. -/
  | afterQuote
deriving DecidableEq, Repr

/-- A record with a last field added; both lists are kept in reverse while reading, where adding to
them is one step. -/
def finished (fields : List (List UInt8)) (field : List UInt8) : List (List UInt8) :=
  (field.reverse :: fields).reverse

/-- The records in the rest of a text, given the place, the fields of the record so far and the
bytes of the field so far, both in reverse. The recursion is on the bytes, and no byte is looked at
twice. -/
def split (place : Place) (fields : List (List UInt8)) (field : List UInt8) :
    List UInt8 → List (List (List UInt8))
  -- the last record needs no line end
  | [] => if place = .recordStart then [] else [finished fields field]
  | b :: rest =>
    match place with
    | .quoted =>
      if b = quote then split .afterQuote fields field rest
      else split .quoted fields (b :: field) rest
    | .recordStart =>
      if isLineEnd b then split .recordStart [] [] rest
      else if b = comma then split .fieldStart [[]] [] rest
      else if b = quote then split .quoted [] [] rest
      else split .unquoted [] [b] rest
    | .fieldStart =>
      if isLineEnd b then finished fields [] :: split .recordStart [] [] rest
      else if b = comma then split .fieldStart ([] :: fields) [] rest
      else if b = quote then split .quoted fields [] rest
      else split .unquoted fields [b] rest
    | .unquoted =>
      if isLineEnd b then finished fields field :: split .recordStart [] [] rest
      else if b = comma then split .fieldStart (field.reverse :: fields) [] rest
      else split .unquoted fields (b :: field) rest
    | .afterQuote =>
      if isLineEnd b then finished fields field :: split .recordStart [] [] rest
      else if b = comma then split .fieldStart (field.reverse :: fields) [] rest
      else if b = quote then split .quoted fields (b :: field) rest
      else split .unquoted fields (b :: field) rest

/-- A text without the byte-order mark at its start. The mark would be part of the first name of the
heading otherwise. -/
def withoutMark : List UInt8 → List UInt8
  | 0xEF :: 0xBB :: 0xBF :: rest => rest
  | bytes => bytes

/-- A field as text without the blanks around it, if its bytes are text. The blanks are those of
Unicode, and they are trimmed after the bytes have been read as text. -/
def fieldText? (field : List UInt8) : Option String :=
  (String.fromUTF8? ⟨field.toArray⟩).map fun s => String.ofList (Text.trim s.toList)

/-- The records of a table after its heading, which is the first record whatever it says. A record
with a field that is no text is `none`. -/
def records (bytes : List UInt8) : List (Option (List String)) :=
  ((split .recordStart [] [] (withoutMark bytes)).drop 1).map fun r => r.mapM fieldText?

end MarketReplay.Table
