/-!
# Cutting at bytes

Places in a text counted in the bytes of its UTF-8 form. A place inside a character is no place to
cut at, and neither is one past the end. Texts are lists of characters here, so each cut walks along
the characters and counts their sizes; that a cut can fail is why the results are options.
-/

set_option autoImplicit false

namespace MarketReplay.Text

/-- What is left of a text after its first `n` bytes. -/
def dropBytes? : Nat → List Char → Option (List Char)
  | 0, text => some text
  | _ + 1, [] => none
  | n + 1, c :: rest =>
    if c.utf8Size ≤ n + 1 then dropBytes? (n + 1 - c.utf8Size) rest else none

/-- The first `n` bytes of a text. -/
def takeBytes? : Nat → List Char → Option (List Char)
  | 0, _ => some []
  | _ + 1, [] => none
  | n + 1, c :: rest =>
    if c.utf8Size ≤ n + 1 then (takeBytes? (n + 1 - c.utf8Size) rest).map (c :: ·) else none

/-- The bytes of a text from `first` up to `last`, the latter not included. -/
def cutBytes? (first last : Nat) (text : List Char) : Option (List Char) :=
  (dropBytes? first text).bind (takeBytes? (last - first))

end MarketReplay.Text
