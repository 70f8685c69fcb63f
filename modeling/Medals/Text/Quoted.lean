import Medals.Text.EscapeTable

/-!
# Quoted texts in messages

Column lists inside messages are written as quoted texts in brackets. Quotes, backslashes, line
ends, tabs and NUL have short escapes; a character without a visible form of its own is written as
its code point in braces.
-/

namespace Medals

/-- Lower-case hexadecimal digits without leading zeros. -/
def hexText (value : Nat) : String :=
  String.ofList (Nat.toDigits 16 value)

/-- One character between quotes. -/
def quotedChar (c : Char) : String :=
  if c = '"' then "\\\""
  else if c = '\\' then "\\\\"
  else if c = '\n' then "\\n"
  else if c = '\t' then "\\t"
  else if c = '\r' then "\\r"
  else if c.toNat = 0 then "\\0"
  else if inBoundaries escapedBoundaries c.toNat then "\\u\x7b" ++ hexText c.toNat ++ "\x7d"
  else c.toString

/-- A text between quotes. -/
def quotedText (text : String) : String :=
  "\"" ++ String.join (text.toList.map quotedChar) ++ "\""

/-- Quoted texts, separated by commas, in brackets. -/
def quotedList (texts : List String) : String :=
  "[" ++ String.intercalate ", " (texts.map quotedText) ++ "]"

end Medals
