/-!
# Blanks

The characters that count as white space at the ends of a field, a timestamp or an option value:
those with the White_Space property. A zero-width space and a byte-order mark are not among them.

This is the set of Unicode and not that of ASCII: a field out of a spreadsheet may end in a no-break
space.
-/

set_option autoImplicit false

namespace MarketReplay.Text

def isBlank (c : Char) : Bool :=
  let n := c.toNat
  (0x09 ≤ n && n ≤ 0x0D) || n == 0x20 || n == 0x85 || n == 0xA0 || n == 0x1680
    || (0x2000 ≤ n && n ≤ 0x200A) || n == 0x2028 || n == 0x2029 || n == 0x202F || n == 0x205F
    || n == 0x3000

/-- A text without the blanks at its start. -/
def trimStart (text : List Char) : List Char := text.dropWhile isBlank

/-- A text without the blanks at its ends. -/
def trim (text : List Char) : List Char := (trimStart (trimStart text).reverse).reverse

end MarketReplay.Text
