import BracketFilter.Text.LowerCase
import BracketFilter.Text.PrintTable

/-!
# Quoted texts

* `quoted` — a text between double quotes, in which the quote and the backslash are escaped, and
  every character that cannot be seen by itself is written by its code point.
-/

set_option autoImplicit false

namespace BracketFilter.Text

/-- Whether a character has no visible form of its own. -/
def isHidden (c : Char) : Bool := inRanges graphemeExtendRanges c || inRanges invisibleRanges c

/-- A code point in braces. -/
def codePoint (c : Char) : String :=
  "\\u\x7b" ++ String.ofList (Nat.toDigits 16 c.toNat) ++ "\x7d"

/-- A character as it stands between double quotes. -/
def quotedChar (c : Char) : String :=
  if c = '"' then "\\\""
  else if c = '\\' then "\\\\"
  else if c = '\n' then "\\n"
  else if c = '\r' then "\\r"
  else if c = '\t' then "\\t"
  else if c.toNat = 0 then "\\0"
  else if isHidden c then codePoint c
  else c.toString

/-- A text between double quotes. -/
def quoted (s : String) : String := "\"" ++ String.join (s.toList.map quotedChar) ++ "\""

end BracketFilter.Text
