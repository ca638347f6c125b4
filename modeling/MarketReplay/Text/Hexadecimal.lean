/-!
# Hexadecimal digits

Numbers in base sixteen, written with small letters and read with letters of either case. They occur
in escapes, of documents, of patterns and of quoted texts.
-/

set_option autoImplicit false

namespace MarketReplay.Text

def hexDigits (n : Nat) : String := String.ofList (Nat.toDigits 16 n)

/-- What a hexadecimal digit is worth. -/
def hexValue? (c : Char) : Option Nat :=
  if c.isDigit then some (c.toNat - '0'.toNat)
  else if 'a' ≤ c ∧ c ≤ 'f' then some (c.toNat - 'a'.toNat + 10)
  else if 'A' ≤ c ∧ c ≤ 'F' then some (c.toNat - 'A'.toNat + 10)
  else none

end MarketReplay.Text
