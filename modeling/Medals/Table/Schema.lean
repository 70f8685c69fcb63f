import Medals.Table.Row

/-!
# Schemas

A schema gives each column a name, a kind and whether its cells may be missing. Kinds are inferred
from cells: the smallest kind that covers every cell that is not missing. A column whose cells are
all at hand is inferred by `Column.infer`; one that is read cell by cell is known by its
`Observation` at any time.
-/

namespace Medals

/-- A column of a table. -/
structure Column where
  name : String
  kind : CellKind
  nullable : Bool
deriving DecidableEq, Repr, Inhabited

/-- What has been seen of the cells of a column that is being read. -/
structure Observation where
  /-- The kind that covers the cells so far, if any was not missing. -/
  kind? : Option CellKind
  /-- A missing cell was seen. -/
  missing : Bool
deriving DecidableEq, Repr

namespace Observation

def none : Observation := ⟨.none, false⟩

/-- Take one more cell into account. -/
def observe (observation : Observation) (cell : Cell) : Observation :=
  match cell.kind? with
  | .none => { observation with missing := true }
  | .some kind =>
    { observation with kind? := some (match observation.kind? with
        | .none => kind
        | .some known => known.widen kind) }

/-- The column as observed. One without any cell of a kind is a nullable text column. -/
def column (observation : Observation) (name : String) : Column :=
  ⟨name, observation.kind?.getD .text, observation.missing || observation.kind?.isNone⟩

end Observation

/-- What some cells of a column that is to be inferred have told. -/
structure Inference where
  /-- The kind that covers the cells, if any was not missing. -/
  kind? : Option CellKind
  nullable : Bool
  /-- There was a cell at all. -/
  seen : Bool
deriving DecidableEq, Repr

namespace Inference

def none : Inference := ⟨.none, false, false⟩

/-- Add what one more cell tells. -/
def add (inference : Inference) (cell : Cell) : Inference :=
  match cell.kind? with
  | .none => { inference with nullable := true, seen := true }
  | .some kind =>
    { inference with
      kind? := some (inference.kind?.elim kind fun known => known.widen kind)
      seen := true }

end Inference

namespace Column

/-- The column that holds the given cells. One without cells, or with none of a kind, is a nullable
text column. -/
def infer (name : String) (cells : List Cell) : Column :=
  let inference := cells.foldl Inference.add Inference.none
  ⟨name, inference.kind?.getD .text,
    inference.nullable || !inference.seen || inference.kind?.isNone⟩

@[simp]
theorem name_infer (name : String) (cells : List Cell) : (infer name cells).name = name := rfl

end Column

/-- The columns of a table. -/
structure Schema where
  columns : List Column
deriving DecidableEq, Repr, Inhabited

namespace Schema

/-- The cells of all rows at one position. -/
def columnCells (rows : List Row) (index : Nat) : List Cell :=
  rows.filterMap fun row => row.cells[index]?

/-- The schema of rows that share a layout. -/
def infer (names : List String) (rows : List Row) : Schema :=
  ⟨names.zipIdx.map fun (name, index) => Column.infer name (columnCells rows index)⟩

def names (schema : Schema) : List String :=
  schema.columns.map Column.name

def position? (schema : Schema) (name : String) : Option Nat :=
  Medals.position? schema.names name

def contains (schema : Schema) (name : String) : Bool :=
  (schema.position? name).isSome

/-- The position of a column, which has to be there. -/
def require (schema : Schema) (name : String) : Except Fault Nat :=
  requirePosition schema.names name

end Schema

end Medals
