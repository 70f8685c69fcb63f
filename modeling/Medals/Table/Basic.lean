import Medals.Table.Filter
import Medals.Table.Projection
import Medals.Table.Schema

/-!
# Tables

A table is a schema and rows laid out by it. The column names are those of the schema and are not
held a second time, so that the two cannot differ; that every row has them is a field of the table.
Operations build new tables and never change the ones they take.
-/

namespace Medals

/-- Rows under one schema. -/
structure Table where
  schema : Schema
  rows : List Row
  aligned : ∀ row ∈ rows, row.names = schema.names

namespace Table

instance : Inhabited Table := ⟨⟨⟨[]⟩, [], by simp⟩⟩

/-- The column names. -/
def names (table : Table) : List String :=
  table.schema.names

def size (table : Table) : Nat :=
  table.rows.length

/-- The first row that is not laid out by the given names. -/
def strayRow? (names : List String) (rows : List Row) : Option Row :=
  rows.find? fun row => row.names != names

/-- Rows under a schema, if they are laid out by it. -/
def ofRows (schema : Schema) (rows : List Row) : Except Fault Table :=
  match stray : strayRow? schema.names rows with
  | some row => .error (.layoutMismatch row.names schema.names)
  | none => .ok ⟨schema, rows, by
      intro row member
      have := List.find?_eq_none.mp stray row member
      simpa using this⟩

/-- Rows under the schema inferred from them, if they are laid out by the given names. -/
def inferred (names : List String) (rows : List Row) : Except Fault Table :=
  ofRows (Schema.infer names rows) rows

/-- A table without rows. -/
def empty (names : List String) : Table :=
  ⟨Schema.infer names [], [], by simp⟩

/-- Rows of bare cells, in order, each of the width of the layout. -/
def rowsOfCells (names : List String) : List (List Cell) → Except Fault (List Row)
  | [] => .ok []
  | cells :: rest =>
    match Row.ofCells names cells with
    | .error fault => .error fault
    | .ok row =>
      match rowsOfCells names rest with
      | .error fault => .error fault
      | .ok rows => .ok (row :: rows)

/-- The cells of a column, in row order. -/
def column (table : Table) (name : String) : Except Fault (List Cell) :=
  (table.schema.require name).map (Schema.columnCells table.rows)

/-- The table with one more column, computed from each row. -/
def addColumn (table : Table) (name : String) (cellOf : Row → Cell) : Except Fault Table :=
  if table.schema.contains name then .error (.columnExists name)
  else .ok
    { schema := ⟨table.schema.columns ++ [Column.infer name (table.rows.map cellOf)]⟩
      rows := table.rows.map fun row => row.append name (cellOf row)
      aligned := by
        intro row member
        obtain ⟨source, sourceMember, rfl⟩ := List.mem_map.mp member
        simp [Row.append, Schema.names, table.aligned source sourceMember] }

/-- The chosen columns of the schema. -/
def projectedSchema (schema : Schema) (projection : Projection) : Schema :=
  ⟨(projection.positions.zip projection.names).map fun (index, name) =>
    { schema.columns.getD index default with name }⟩

theorem names_projectedSchema (schema : Schema) (projection : Projection) :
    (projectedSchema schema projection).names = projection.names := by
  simp only [projectedSchema, Schema.names, List.map_map]
  exact List.map_snd_zip (Nat.le_of_eq projection.width.symm)

/-- The table with exactly the named columns, in that order. -/
def project (table : Table) (names : List String) : Except Fault Table :=
  (Projection.bind table.names names).map fun projection =>
    { schema := projectedSchema table.schema projection
      rows := table.rows.map projection.apply
      aligned := by
        intro row member
        obtain ⟨source, _, rfl⟩ := List.mem_map.mp member
        rw [names_projectedSchema]
        rfl }

/-- The rows that pass a filter. -/
def filter (table : Table) (filter : Filter) : Except Fault Table :=
  (filter.bind table.names).map fun bound =>
    { schema := table.schema
      rows := table.rows.filter bound.accepts
      aligned := fun row member => table.aligned row (List.mem_filter.mp member).1 }

/-- At most `length` rows from `offset` on. -/
def slice (table : Table) (offset length : Nat) : Table where
  schema := table.schema
  rows := (table.rows.drop offset).take length
  aligned := fun row member => table.aligned row (List.mem_of_mem_drop (List.mem_of_mem_take member))

/-- The first rows. -/
def head (table : Table) (length : Nat) : Table :=
  table.slice 0 length

end Table

end Medals
