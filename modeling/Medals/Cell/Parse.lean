import Medals.Cell.Basic
import Medals.Text.Blank

/-!
# Cells from raw text

`Cell.infer` finds the kind of a cell in its text; `Cell.parseAs` is told the kind. Both look at
the trimmed text and keep the raw one for text cells. Neither yields a missing cell for a text of
its own accord, except that a number of a declared kind that cannot be read is missing.
-/

namespace Medals

/-- Only texts that begin with a digit, a sign or a point are tried as numbers, so that names such
as `Nan` stay names. -/
def looksNumeric (chars : List Char) : Bool :=
  match chars with
  | [] => false
  | c :: _ => Numeral.isDigit c || c == '+' || c == '-' || c == '.'

/-- A text read as a finite number. -/
def readFinite? (text : String) : Option Double :=
  (readDouble? text).filter Double.isFinite

namespace Cell

/-- An integer if the text is one, else a finite number if it is one, else the text. -/
def infer (raw : String) : Cell :=
  let body := trimmed raw
  if looksNumeric body.toList then
    match readInt64? body with
    | some value => integer value
    | none =>
      match readFinite? body with
      | some value => number value
      | none => text raw
  else text raw

/-- The text as a cell of the declared kind. A whole number written with a point or a power of ten
is accepted as an integer, clamped to 64 bits. -/
def parseAs (raw : String) : CellKind → Cell
  | .text => text raw
  | .integer =>
    let body := trimmed raw
    match readInt64? body with
    | some value => integer value
    | none =>
      match (readFinite? body).bind Double.toInt? with
      | some value => integer (Int64.ofIntClamp value)
      | none => missing
  | .number =>
    match readFinite? (trimmed raw) with
    | some value => number value
    | none => missing

end Cell

end Medals
