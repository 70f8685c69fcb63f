import Medals.Cell.Key
import Medals.Table.Row
import Medals.Text.Lower

/-!
# Filters

A filter is a conjunction of conditions on columns. It can be evaluated by name on a single row, or
bound to a layout once, so that rows of that layout are tested by position. A missing cell fails
every condition.
-/

namespace Medals

/-- A condition on the cell of one column. -/
inductive Condition where
  /-- The cell has the key of the given one. -/
  | equals (column : String) (cell : Cell)
  /-- The cell lies between the bounds, each included and each optional. -/
  | range (column : String) (low? high? : Option Cell)
  /-- The cell's text holds the needle, case aside. -/
  | contains (column needle : String)
  /-- The cell's text begins with the given one, case aside. -/
  | startsWith (column start : String)
  /-- The cell is not missing. -/
  | present (column : String)
deriving DecidableEq, Repr, Inhabited

/-- A condition without its column, prepared for many cells. -/
inductive Test where
  | equals (key : CellKey)
  | range (low? high? : Option Cell)
  | contains (needle : List Char)
  | startsWith (start : List Char)
  | present
deriving DecidableEq, Repr, Inhabited

namespace Cell

/-- Compare two texts, or two numbers as doubles; other cells are not comparable. -/
def compareAlike? : Cell → Cell → Option Ordering
  | text left, text right => some (compare left right)
  | left, right =>
    match left.toDouble?, right.toDouble? with
    | some left, some right => left.compare? right
    | _, _ => none

/-- The characters of the written form in lower case. -/
def loweredChars (cell : Cell) : List Char :=
  lowerChars cell.plainText.toList

end Cell

namespace Test

/-- The cell is comparable with the bound and not below it. -/
def reaches (cell bound : Cell) : Bool :=
  match cell.compareAlike? bound with
  | some order => order != .lt
  | none => false

/-- The cell is comparable with the bound and not above it. -/
def staysWithin (cell bound : Cell) : Bool :=
  match cell.compareAlike? bound with
  | some order => order != .gt
  | none => false

/-- The cell passes the test. -/
def accepts (test : Test) (cell : Cell) : Bool :=
  if cell.isMissing then false
  else
    match test with
    | equals key => !key.isMissing && cell.key == key
    | range low? high? => low?.all (reaches cell) && high?.all (staysWithin cell)
    | contains needle => containsChars needle cell.loweredChars
    | startsWith start => start.isPrefixOf cell.loweredChars
    | present => true

end Test

namespace Condition

def column : Condition → String
  | equals column _ => column
  | range column _ _ => column
  | contains column _ => column
  | startsWith column _ => column
  | present column => column

/-- The condition prepared for many cells. -/
def test : Condition → Test
  | equals _ cell => .equals cell.key
  | range _ low? high? => .range low? high?
  | contains _ needle => .contains (lowerChars needle.toList)
  | startsWith _ start => .startsWith (lowerChars start.toList)
  | present _ => .present

end Condition

/-- A conjunction of conditions; without any it accepts every row. -/
structure Filter where
  conditions : List Condition
deriving DecidableEq, Repr, Inhabited

/-- A filter resolved to positions of one layout. -/
structure BoundFilter where
  tests : List (Nat × Test)
deriving DecidableEq, Repr, Inhabited

namespace BoundFilter

/-- A row of the layout passes every test. -/
def accepts (filter : BoundFilter) (row : Row) : Bool :=
  filter.tests.all fun (index, test) => test.accepts (row.cellAt index)

end BoundFilter

namespace Filter

/-- Accepts every row. -/
def all : Filter := ⟨[]⟩

/-- The filter with one more condition. -/
def and (filter : Filter) (condition : Condition) : Filter :=
  ⟨filter.conditions ++ [condition]⟩

def isEmpty (filter : Filter) : Bool :=
  filter.conditions.isEmpty

/-- Resolve conditions in order; the first unknown column is the fault. -/
def bindConditions (names : List String) : List Condition → Except Fault (List (Nat × Test))
  | [] => .ok []
  | condition :: rest =>
    match requirePosition names condition.column with
    | .error fault => .error fault
    | .ok index =>
      match bindConditions names rest with
      | .error fault => .error fault
      | .ok tests => .ok ((index, condition.test) :: tests)

/-- The filter resolved to a layout. -/
def bind (filter : Filter) (names : List String) : Except Fault BoundFilter :=
  (bindConditions names filter.conditions).map BoundFilter.mk

/-- Test conditions in order on one row, up to the first that fails or has no column. -/
def evalConditions (row : Row) : List Condition → Except Fault Bool
  | [] => .ok true
  | condition :: rest =>
    match row.get condition.column with
    | .error fault => .error fault
    | .ok cell => if condition.test.accepts cell then evalConditions row rest else .ok false

/-- The row, looked at by name, passes the filter. -/
def eval (filter : Filter) (row : Row) : Except Fault Bool :=
  evalConditions row filter.conditions

end Filter

end Medals
