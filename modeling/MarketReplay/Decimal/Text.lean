import MarketReplay.Decimal.Fixed
import MarketReplay.Decimal.Literal

/-!
# Numbers as decimal text

What loading and messages ask of a number type: to be read from a field and to be written into a
sentence. The float instance ties the two readings and layouts of this folder together; another
number type only has to say how it is spelled.
-/

set_option autoImplicit false

namespace MarketReplay

/-- How a number type is read and written as text. Nothing ties the readings to the writings here; a
theorem that needs a number to read back what was written takes that as its hypothesis, of the texts
it is about. -/
class DecimalText (α : Type) where
  /-- The number a text spells, if it spells one. -/
  read? : List Char → Option α
  /-- The number as it stands in a message. -/
  message : α → String
  /-- The number with a fixed count of decimal places. -/
  fixed : Nat → α → String

instance : DecimalText Float where
  read? := Decimal.readFloat?
  message := Decimal.Layout.message.write
  fixed places x := Decimal.fixed places false x

end MarketReplay
