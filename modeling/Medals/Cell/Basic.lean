import Medals.Number.Reading
import Medals.Number.Writing

/-!
# Cells

A table cell is missing, a 64-bit integer, a binary64 number or a text. Truth values and dates are
not part of the data model; they stay texts.
-/

namespace Medals

/-- The kind of a cell that is not missing. -/
inductive CellKind where
  | integer
  | number
  | text
deriving DecidableEq, Repr, Inhabited

namespace CellKind

/-- The smallest kind that covers both: integers are numbers, and everything has a text. -/
def widen : CellKind → CellKind → CellKind
  | integer, integer => integer
  | integer, number => number
  | number, integer => number
  | number, number => number
  | _, _ => text

end CellKind

/-- A table cell. -/
inductive Cell where
  | missing
  | integer (value : Int64)
  | number (value : Double)
  | text (value : String)
deriving DecidableEq, Repr, Inhabited

namespace Cell

/-- The kind of a cell that is not missing. -/
def kind? : Cell → Option CellKind
  | missing => none
  | integer _ => some .integer
  | number _ => some .number
  | text _ => some .text

def isMissing : Cell → Bool
  | missing => true
  | _ => false

/-- The cell as an integer: numbers without fractional part count, clamped to 64 bits. -/
def toInt64? : Cell → Option Int64
  | integer value => some value
  | number value => value.toInt?.map Int64.ofIntClamp
  | _ => none

/-- The cell as a number: integers are rounded to the nearest double. -/
def toDouble? : Cell → Option Double
  | integer value => some (Double.ofInt value.toInt)
  | number value => some value
  | _ => none

/-- The text of a text cell. -/
def toText? : Cell → Option String
  | text value => some value
  | _ => none

/-- The written form of a cell; a missing cell is empty. -/
def plainText : Cell → String
  | missing => ""
  | integer value => integerText value.toInt
  | number value => value.plainText
  | text value => value

/-- Equality of cells of one kind, numbers compared as numbers: zeros are equal and a NaN differs
from itself. -/
def equal : Cell → Cell → Bool
  | missing, missing => true
  | integer left, integer right => left == right
  | number left, number right => left.numericEq right
  | text left, text right => left == right
  | _, _ => false

end Cell

end Medals
