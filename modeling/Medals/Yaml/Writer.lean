import Medals.Yaml.Character
import Medals.Yaml.Plain

/-!
# Writing YAML documents

Mappings of names to scalars and lists of scalars, one entry a line. A text is written plain if it
can be read back so; else between single quotes; texts of several lines as literal blocks; and texts
with characters that need escapes between double quotes.
-/

namespace Medals

namespace Yaml

/-- The first character, with what follows it, would be taken for an indicator. -/
def startsLikeIndicator (chars : List Char) : Bool :=
  match chars with
  | [] => false
  | c :: rest =>
    ['#', ',', '[', ']', '\x7b', '\x7d', '&', '*', '!', '|', '>', '\'', '"', '%', '@',
        '\x60'].contains c ||
      (['?', ':', '-'].contains c && blankFollows rest) ||
      ['-', '-', '-'].isPrefixOf chars || ['.', '.', '.'].isPrefixOf chars

/-- Past the first character, a colon would end the text or a number sign begin a comment. -/
def holdsIndicator (afterBlank : Bool) : List Char → Bool
  | [] => false
  | c :: rest =>
    (c == ':' && blankFollows rest) || (c == '#' && afterBlank) ||
      holdsIndicator (isBlank c || isBreak c) rest

/-- One of the first kind of character is followed by one of the second. -/
def meets (first second : Char → Bool) : List Char → Bool
  | c :: d :: rest => (first c && second d) || meets first second (d :: rest)
  | _ => false

def isSpaceChar (c : Char) : Bool := c == ' '

/-- Neither quotes nor a block keep the text: it has characters without a form of their own, or a
line that ends with a space. -/
def needsEscapes (chars : List Char) : Bool :=
  !chars.all isPrintable || meets isSpaceChar isBreak chars

/-- The text may stand between single quotes. -/
def allowsSingleQuotes (chars : List Char) : Bool :=
  !needsEscapes chars && !meets isBreak isSpaceChar chars

/-- The text may be written as a block. -/
def allowsBlock (chars : List Char) : Bool :=
  !needsEscapes chars && chars.getLast? != some ' '

/-- The text may be written plain. -/
def allowsPlain (chars : List Char) : Bool :=
  !needsEscapes chars && !chars.any isBreak && chars.head? != some ' ' &&
    chars.getLast? != some ' ' && !startsLikeIndicator chars && !holdsIndicator false (chars.drop 1)

/-- The form that a text is written in. -/
inductive Form where
  | plain
  | singleQuoted
  | doubleQuoted
  | literal
deriving DecidableEq, Repr

/-- Single quotes, or double ones if they are needed. -/
def quotedForm (chars : List Char) : Form :=
  if allowsSingleQuotes chars then .singleQuoted else .doubleQuoted

/-- The form of a text. -/
def formOf (text : String) : Form :=
  let chars := text.toList
  if isAmbiguous text then quotedForm chars
  else if chars.contains '\n' then if allowsBlock chars then .literal else .doubleQuoted
  else if allowsPlain chars then .plain
  else quotedForm chars

/-- Lines inside a scalar stand two spaces from the margin. -/
def margin : List Char := [' ', ' ']

/-- The inside of single quotes; a line break is doubled by an empty line before it. -/
def insideQuotes (afterBreak : Bool) : List Char → List Char
  | [] => if afterBreak then margin else []
  | c :: rest =>
    if isBreak c then
      (if c = '\n' ∧ !afterBreak then ['\n', c] else [c]) ++ insideQuotes true rest
    else
      (if afterBreak then margin else []) ++ (if c = '\'' then [c, c] else [c]) ++
        insideQuotes false rest

/-- Upper-case hexadecimal digits, filled up with zeros. -/
def hexPadded (width value : Nat) : String :=
  let digits := (Nat.toDigits 16 value).map Char.toUpper
  String.ofList (List.replicate (width - digits.length) '0' ++ digits)

/-- The letter after the backslash for characters that have one. -/
def escapeLetter? (code : Nat) : Option Char :=
  ([(0x00, '0'), (0x07, 'a'), (0x08, 'b'), (0x09, 't'), (0x0a, 'n'), (0x0b, 'v'), (0x0c, 'f'),
    (0x0d, 'r'), (0x1b, 'e'), (0x22, '"'), (0x5c, '\\'), (0x85, 'N'), (0x2028, 'L'),
    (0x2029, 'P')].find? fun entry => entry.1 == code).map Prod.snd

/-- One character between double quotes. -/
def doubleQuotedChar (c : Char) : String :=
  match escapeLetter? c.toNat with
  | some letter => "\\" ++ letter.toString
  | none =>
    if isPrintable c then c.toString
    else if c.toNat ≤ 0xff then "\\x" ++ hexPadded 2 c.toNat
    else if c.toNat ≤ 0xffff then "\\u" ++ hexPadded 4 c.toNat
    else "\\U" ++ hexPadded 8 c.toNat

/-- What a literal block says of the line breaks at its end: none is kept, all are, or just one. -/
def chompMark (chars : List Char) : String :=
  match chars.reverse with
  | [] => "-"
  | [last] => if isBreak last then "+" else "-"
  | last :: before :: _ =>
    if !isBreak last then "-" else if isBreak before then "+" else ""

/-- The margin of a literal block is told when its first line begins with a space or is empty. -/
def marginMark (chars : List Char) : String :=
  match chars with
  | c :: _ => if c == ' ' || isBreak c then "2" else ""
  | [] => ""

/-- The lines of a literal block. -/
def literalFrom (afterBreak : Bool) : List Char → List Char
  | [] => []
  | c :: rest =>
    if isBreak c then c :: literalFrom true rest
    else (if afterBreak then margin else []) ++ c :: literalFrom false rest

/-- A text in a form, up to its line end. A literal block that ends with a line break has its line
end already. -/
def writtenAs (text : String) : Form → String
  | .plain => text ++ "\n"
  | .singleQuoted => "'" ++ String.ofList (insideQuotes false text.toList) ++ "'\n"
  | .doubleQuoted => "\"" ++ String.join (text.toList.map doubleQuotedChar) ++ "\"\n"
  | .literal =>
    "|" ++ marginMark text.toList ++ chompMark text.toList ++ "\n" ++
      String.ofList (literalFrom true text.toList) ++
      (if text.toList.getLast?.any isBreak then "" else "\n")

/-- A value of an entry. -/
inductive Value where
  | null
  | boolean (value : Bool)
  | count (value : Nat)
  /-- A single character, always between quotes. -/
  | character (value : Char)
  | text (value : String)
  | texts (values : List String)
deriving DecidableEq, Repr

namespace Value

/-- The text of a value after its name and colon. -/
def written : Value → String
  | null => " null\n"
  | boolean value => if value then " true\n" else " false\n"
  | count value => " " ++ value.repr ++ "\n"
  | character value => " " ++ writtenAs value.toString (quotedForm [value])
  | text value => " " ++ writtenAs value (formOf value)
  | texts [] => " []\n"
  | texts values =>
    "\n" ++ String.join (values.map fun value => "- " ++ writtenAs value (formOf value))

end Value

/-- A mapping, one entry after the other; the names need no quotes. -/
def writtenMapping (entries : List (String × Value)) : String :=
  String.join (entries.map fun (name, value) => name ++ ":" ++ value.written)

end Yaml

end Medals
