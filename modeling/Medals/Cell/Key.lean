import Medals.Cell.Parse

/-!
# Cell identities

Joins, groupings and equality conditions do not compare cells but their keys, in which the
spelling of a number is forgotten: `"2012"`, `2012` and `2012.0` share one key.
-/

namespace Medals

/-- The identity of a cell. -/
inductive CellKey where
  | missing
  | integer (value : Int64)
  | number (bits : UInt64)
  | text (value : String)
deriving DecidableEq, Repr, Hashable, Inhabited

namespace CellKey

def isMissing : CellKey → Bool
  | missing => true
  | _ => false

/-- Position of the kind of key: missing, integers, other numbers, texts. -/
def place : CellKey → Nat
  | missing => 0
  | integer _ => 1
  | number _ => 2
  | text _ => 3

/-- Keys of one kind by value, numbers by their bits; keys of different kinds by kind. -/
def order : CellKey → CellKey → Ordering
  | integer left, integer right => compare left.toInt right.toInt
  | number left, number right => compare left.toNat right.toNat
  | text left, text right => compare left right
  | left, right => compare left.place right.place

end CellKey

/-- The key of a number: whole numbers between the bounds of 64-bit integers, as doubles, have the
key of an integer, clamped to 64 bits. -/
def Double.key (value : Double) : CellKey :=
  match value.toInt? with
  | some whole =>
    if Int64.minValue.toInt ≤ whole ∧ whole ≤ -Int64.minValue.toInt then .integer (Int64.ofIntClamp whole)
    else .number value.bits
  | none => .number value.bits

/-- The key of a cell. A text that looks numeric and reads as a number has that number's key. -/
def Cell.key : Cell → CellKey
  | missing => .missing
  | integer value => .integer value
  | number value => value.key
  | text raw =>
    let body := trimmed raw
    if looksNumeric body.toList then
      match readInt64? body with
      | some value => .integer value
      | none =>
        match readDouble? body with
        | some value => value.key
        | none => .text raw
    else .text raw

end Medals
