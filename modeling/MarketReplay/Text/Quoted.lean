import MarketReplay.Text.Hexadecimal
import MarketReplay.Text.Joining
import MarketReplay.Text.Visible

/-!
# Quoted text in messages

A message that shows a piece of input puts it between double quotes, so that its ends and its
invisible characters can be seen. Quotes and backslashes are escaped, the common control
characters have letters, and every other character that does not show, or shows only on another
one, is written by its number.
-/

set_option autoImplicit false

namespace MarketReplay.Text

/-- A character by its number, as `\u` and hexadecimal digits in braces. -/
def numbered (c : Char) : String := "\\u\x7b" ++ hexDigits c.toNat ++ "\x7d"

/-- How a character stands between quotes. -/
def escaped (c : Char) : String :=
  if c = '"' then "\\\""
  else if c = '\\' then "\\\\"
  else if c = '\n' then "\\n"
  else if c = '\r' then "\\r"
  else if c = '\t' then "\\t"
  else if c = Char.ofNat 0 then "\\0"
  else if isVisible c && !isJoining c then String.singleton c
  else numbered c

def quoted (text : String) : String :=
  "\"" ++ String.join (text.toList.map escaped) ++ "\""

end MarketReplay.Text
