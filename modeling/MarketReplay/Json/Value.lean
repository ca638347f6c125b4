/-!
# JSON values

A value keeps whole numbers apart from other numbers, because fields that count or name an instant
take the former only, and it keeps the members of an object in the order written. Two things a
text can hold have no value: a number beyond the floats and a string with half of a surrogate
pair. Both become `unreadable`, so that a reader who skips the place where they stand need not
refuse the text (`Json.isSound` says when nothing was lost).

Objects may name a key twice. Which value then counts is not for this type to say: `settled` keeps
the last one, and the record decoders (`MarketReplay.Json.Record`) refuse the object.
-/

set_option autoImplicit false

namespace MarketReplay

/-- A document as a tree. The members of an object are a list, so that two texts which differ in the
order of members are different values; whatever reads a record has to say that the order does not
matter. -/
inductive Json (α : Type) where
  | null
  | bool (value : Bool)
  | int (value : Int)
  | real (value : α)
  | string (value : String)
  | list (items : List (Json α))
  | object (members : List (String × Json α))
  | unreadable

namespace Json

variable {α : Type}

/-- Whether every part of a value was read, and lists and objects stand at most `depth` deep in one
another. The recursion is on the depth and not on the value, since a value that is too deep is not
looked at below that. -/
def isSound : Nat → Json α → Bool
  | _, .unreadable => false
  | 0, .list _ => false
  | 0, .object _ => false
  | depth + 1, .list items => items.all (isSound depth)
  | depth + 1, .object members => members.all fun m => isSound depth m.2
  | _, _ => true

/-- Members without those whose key is named again later. The last one keeps its own place, so that
the order of the keys is that of their last mention. -/
def keepLast : List (String × Json α) → List (String × Json α)
  | [] => []
  | m :: rest => if rest.any (·.1 == m.1) then keepLast rest else m :: keepLast rest

mutual

/-- The value with the last of the members of one key kept in every object. -/
def settled : Json α → Json α
  | .list items => .list (settledItems items)
  | .object members => .object (keepLast (settledMembers members))
  | other => other

def settledItems : List (Json α) → List (Json α)
  | [] => []
  | j :: rest => settled j :: settledItems rest

def settledMembers : List (String × Json α) → List (String × Json α)
  | [] => []
  | (k, j) :: rest => (k, settled j) :: settledMembers rest

end

end Json

end MarketReplay
