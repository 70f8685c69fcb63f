import Medals.Fault

/-!
# Rows

A row lists cells under column names, as many of one as of the other. Names may repeat; a look-up
by name finds the first column of that name.
-/

namespace Medals

/-- The first position of a column name. -/
def position? (names : List String) (name : String) : Option Nat :=
  names.findIdx? (· == name)

/-- The first position of a column name, which has to be there. -/
def requirePosition (names : List String) (name : String) : Except Fault Nat :=
  match position? names name with
  | some index => .ok index
  | none => .error (.unknownColumn name)

/-- Cells under column names. -/
structure Row where
  names : List String
  cells : List Cell
  width : cells.length = names.length
deriving DecidableEq, Repr

namespace Row

instance : Inhabited Row := ⟨⟨[], [], rfl⟩⟩

/-- A row of given names and cells, if there are as many of one as of the other. -/
def ofCells (names : List String) (cells : List Cell) : Except Fault Row :=
  if width : cells.length = names.length then .ok ⟨names, cells, width⟩
  else .error (.rowWidth cells.length names.length)

/-- Collect names in order, refusing the first that comes again. -/
def distinctNames (seen : List String) : List String → Except Fault Unit
  | [] => .ok ()
  | name :: rest =>
    if seen.contains name then .error (.columnExists name) else distinctNames (name :: seen) rest

/-- A row of named cells with distinct names. -/
def ofPairs (pairs : List (String × Cell)) : Except Fault Row := do
  distinctNames [] (pairs.map Prod.fst)
  return ⟨pairs.map Prod.fst, pairs.map Prod.snd, by simp⟩

def size (row : Row) : Nat :=
  row.cells.length

def position? (row : Row) (name : String) : Option Nat :=
  Medals.position? row.names name

/-- The cell at a position; beyond the row there are only missing cells. -/
def cellAt (row : Row) (index : Nat) : Cell :=
  row.cells.getD index .missing

/-- The cell under a name. -/
def get (row : Row) (name : String) : Except Fault Cell :=
  match row.position? name with
  | some index => .ok (row.cellAt index)
  | none => .error (.unknownColumn name)

/-- The row with one more column at the end. -/
def append (row : Row) (name : String) (cell : Cell) : Row :=
  ⟨row.names ++ [name], row.cells ++ [cell], by simp [row.width]⟩

/-- The row with one more column at the end, under a new name. -/
def withColumn (row : Row) (name : String) (cell : Cell) : Except Fault Row :=
  match row.position? name with
  | some _ => .error (.columnExists name)
  | none => .ok (row.append name cell)

/-- The same cells under other names. -/
def rename (row : Row) (names : List String) : Except Fault Row :=
  ofCells names row.cells

/-- The cells with their names, in order. -/
def entries (row : Row) : List (String × Cell) :=
  row.names.zip row.cells

/-- The cells at the given positions, under new names. -/
def pick (row : Row) (positions : List Nat) (names : List String)
    (width : positions.length = names.length) : Row :=
  ⟨names, positions.map row.cellAt, by simpa using width⟩

end Row

end Medals
