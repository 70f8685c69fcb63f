import Medals.Proofs.Table.Columns

/-!
# Rows of one layout

`Row.ofCells`, `Table.rowsOfCells`, `Table.ofRows` and `Table.inferred` check widths and names.
`Table.rowsOfCells_ok` and `Table.ofRows_ok` say that the checks pass on cells of the right width
and on rows of the right layout, so that an operator that prepares such rows cannot fail there.
-/

namespace Medals

namespace Schema

theorem names_infer (names : List String) (rows : List Row) : (infer names rows).names = names := by
  simp only [infer, Schema.names, List.map_map]
  exact List.zipIdx_map_fst 0 names

end Schema

namespace Table

/-- Cells of the width of a layout make rows of that layout. -/
theorem rowsOfCells_ok {names : List String} {lists : List (List Cell)}
    (width : ∀ cells ∈ lists, cells.length = names.length) :
    ∃ rows, rowsOfCells names lists = .ok rows ∧ rows.map Row.cells = lists ∧
      ∀ row ∈ rows, row.names = names := by
  induction lists with
  | nil => exact ⟨[], rfl, rfl, by simp⟩
  | cons cells rest ih =>
    obtain ⟨first, others⟩ := List.forall_mem_cons.mp width
    obtain ⟨rows, built, same, aligned⟩ := ih others
    refine ⟨⟨names, cells, first⟩ :: rows, ?_, ?_, ?_⟩
    · simp [rowsOfCells, Row.ofCells, first, built]
    · simp [same]
    · simpa using aligned

/-- Rows of the layout of a schema make a table under it. -/
theorem ofRows_ok {schema : Schema} {rows : List Row}
    (aligned : ∀ row ∈ rows, row.names = schema.names) :
    ofRows schema rows = .ok ⟨schema, rows, aligned⟩ := by
  have noStray : strayRow? schema.names rows = none := by
    simpa [strayRow?, List.find?_eq_none] using aligned
  unfold ofRows
  split
  · next row stray => simp [noStray] at stray
  · rfl

theorem inferred_ok {names : List String} {rows : List Row}
    (aligned : ∀ row ∈ rows, row.names = names) :
    ∃ table, inferred names rows = .ok table ∧ table.names = names ∧ table.rows = rows :=
  ⟨_, ofRows_ok (by simpa [Schema.names_infer] using aligned), Schema.names_infer names rows, rfl⟩

/-- Tables of one schema are told apart by their cells. -/
theorem ext_cells {left right : Table} (schema : left.schema = right.schema)
    (cells : left.rows.map Row.cells = right.rows.map Row.cells) : left = right := by
  have rows : left.rows = right.rows := by
    have sizes : left.rows.length = right.rows.length := by simpa using congrArg List.length cells
    refine List.ext_getElem sizes fun index here there => Row.ext_cells ?_ ?_
    · rw [left.aligned _ (List.getElem_mem here), right.aligned _ (List.getElem_mem there), schema]
    · have same := congrArg (fun lists => lists[index]?) cells
      simpa [here, there] using same
  cases left
  cases right
  cases schema
  cases rows
  rfl

end Table

end Medals
