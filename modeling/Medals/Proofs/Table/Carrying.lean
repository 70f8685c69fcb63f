import Medals.Proofs.Table.Binding
import Medals.Proofs.Table.NestedLoop
import Medals.Table.Sort

/-!
# Cells carried from table to table

`Table.Carries` says that a table has one row for each row of another, in any order, with the same
cells under some names. Sorting, further columns, a choice of columns and a left join with a table
of unique keys all carry the cells of the columns that stay.
-/

namespace Medals

namespace Row

/-- The cells under some names. -/
def cellsUnder (row : Row) (names : List String) : List Cell :=
  names.map row.under

/-- Further columns at the end hide none of those before. -/
theorem under_of_append {short long : Row} {more : List String} {extra : List Cell} {name : String}
    (names : long.names = short.names ++ more) (cells : long.cells = short.cells ++ extra)
    (listed : name ∈ short.names) : long.under name = short.under name := by
  obtain ⟨index, found⟩ := exists_position?_iff.mpr listed
  have inside : index < short.cells.length := by
    rw [short.width]
    exact (List.findIdx?_eq_some_iff_getElem.mp found).1
  have same : Medals.position? long.names name = some index := by
    rw [Medals.position?] at found
    rw [names, Medals.position?, List.findIdx?_append, found, Option.some_or]
  rw [under_eq_cellAt same, under_eq_cellAt found, cellAt, cellAt, cells,
    List.getD_eq_getElem?_getD, List.getD_eq_getElem?_getD, List.getElem?_append_left inside]

theorem cellsUnder_of_append {short long : Row} {more kept : List String} {extra : List Cell}
    (names : long.names = short.names ++ more) (cells : long.cells = short.cells ++ extra)
    (listed : ∀ name ∈ kept, name ∈ short.names) :
    long.cellsUnder kept = short.cellsUnder kept :=
  List.map_congr_left fun name member => under_of_append names cells (listed name member)

end Row

namespace Table

/-- No two rows share a key without missing parts under some names. -/
def KeyedOnce (table : Table) (on : List String) : Prop :=
  table.rows.Pairwise fun row other => ¬ row.Agree on other

instance (table : Table) (on : List String) : Decidable (table.KeyedOnce on) :=
  inferInstanceAs (Decidable (List.Pairwise _ _))

/-- The result has the kept columns, and a row for each row of the source with the same cells in
them. -/
structure Carries (kept : List String) (source result : Table) : Prop where
  names : ∀ name ∈ kept, name ∈ result.names
  cells : (result.rows.map fun row => row.cellsUnder kept).Perm
    (source.rows.map fun row => row.cellsUnder kept)

namespace Carries

variable {kept : List String} {source middle result : Table}

theorem refl (held : ∀ name ∈ kept, name ∈ source.names) : Carries kept source source :=
  ⟨held, List.Perm.refl _⟩

theorem trans (first : Carries kept source middle) (second : Carries kept middle result) :
    Carries kept source result :=
  ⟨second.names, second.cells.trans first.cells⟩

theorem size_eq (carries : Carries kept source result) :
    result.rows.length = source.rows.length := by
  simpa using carries.cells.length_eq

end Carries

section Operations

variable {kept : List String} {table result : Table}

theorem carries_addColumn {name : String} {cellOf : Row → Cell}
    (added : table.addColumn name cellOf = .ok result)
    (held : ∀ name ∈ kept, name ∈ table.names) : Carries kept table result := by
  unfold addColumn at added
  split at added
  · simp at added
  · obtain rfl := Except.ok.inj added
    refine ⟨fun name member => ?_, ?_⟩
    · have listed := held name member
      simp only [Table.names, Schema.names, List.map_append, List.mem_append] at listed ⊢
      exact .inl listed
    · rw [List.map_map]
      refine List.Perm.of_eq (List.map_congr_left fun row member => ?_)
      exact Row.cellsUnder_of_append rfl rfl fun name member' =>
        table.aligned row member ▸ held name member'

theorem carries_sortBy {column : String} {descending : Bool}
    (sorted : table.sortBy column descending = .ok result)
    (held : ∀ name ∈ kept, name ∈ table.names) : Carries kept table result := by
  obtain ⟨bound, -, rfl⟩ := map_eq_ok_iff.mp sorted
  exact ⟨held, (List.mergeSort_perm table.rows _).map _⟩

/-- Enough of the first rows are all of them. -/
theorem carries_head {length : Nat} (enough : table.rows.length ≤ length)
    (held : ∀ name ∈ kept, name ∈ table.names) : Carries kept table (table.head length) := by
  refine ⟨held, List.Perm.of_eq ?_⟩
  simp [head, slice, List.take_of_length_le enough]

theorem rows_of_project {columns : List String} (projected : table.project columns = .ok result) :
    ∃ projection, Projection.bind table.names columns = .ok projection ∧
      result.names = columns ∧ result.rows = table.rows.map projection.apply := by
  obtain ⟨projection, bound, rfl⟩ := map_eq_ok_iff.mp projected
  exact ⟨projection, bound, (names_projectedSchema table.schema projection).trans
    (Projection.resolves_of_bind bound).1, rfl⟩

/-- A choice of columns narrows all rows to them. -/
theorem narrow_of_project {columns : List String}
    (projected : table.project columns = .ok result) :
    result.names = columns ∧ result.rows = table.rows.map fun row => row.narrow columns := by
  obtain ⟨projection, bound, names, rows⟩ := rows_of_project projected
  refine ⟨names, rows.trans (List.map_congr_left fun row member => ?_)⟩
  exact Projection.apply_eq_narrow bound (table.aligned row member)

theorem carries_project {columns : List String} (projected : table.project columns = .ok result)
    (chosen : ∀ name ∈ kept, name ∈ columns) : Carries kept table result := by
  obtain ⟨projection, bound, names, rows⟩ := rows_of_project projected
  refine ⟨fun name member => names ▸ chosen name member, ?_⟩
  rw [rows, List.map_map]
  refine List.Perm.of_eq (List.map_congr_left fun row member => ?_)
  exact List.map_congr_left fun name member' =>
    Projection.under_apply bound (table.aligned row member) (chosen name member')

/-- Chosen key columns stay unique. -/
theorem KeyedOnce.project {columns on : List String} (once : table.KeyedOnce on)
    (projected : table.project columns = .ok result) (chosen : ∀ name ∈ on, name ∈ columns) :
    result.KeyedOnce on := by
  obtain ⟨projection, bound, -, rows⟩ := rows_of_project projected
  have same : ∀ row ∈ table.rows, (projection.apply row).keysUnder on = row.keysUnder on :=
    fun row member => List.map_congr_left fun name member' => by
      rw [Projection.under_apply bound (table.aligned row member) (chosen name member')]
  rw [KeyedOnce, rows, List.pairwise_map]
  refine once.imp_of_mem fun {row other} member member' apart agree => apart ?_
  rwa [Row.Agree, same row member, same other member'] at agree

/-- A left row has at most one partner among rows with unique keys. -/
theorem KeyedOnce.partners {right : Table} {on : List String} (once : right.KeyedOnce on)
    (row : Row) : (right.rows.filter fun other => row.Agree on other) = [] ∨
      ∃ partner, (right.rows.filter fun other => row.Agree on other) = [partner] := by
  have apart := once.filter fun other => row.Agree on other
  have agree : ∀ other ∈ right.rows.filter fun other => row.Agree on other,
      row.Agree on other := fun other member => by simpa using (List.mem_filter.mp member).2
  match found : right.rows.filter fun other => row.Agree on other with
  | [] => exact .inl rfl
  | [partner] => exact .inr ⟨partner, rfl⟩
  | first :: second :: rest =>
    rw [found] at apart agree
    have one := agree first (by simp)
    have other := agree second (by simp)
    exact absurd ⟨one.1.symm.trans other.1, one.1 ▸ one.2⟩
      ((List.pairwise_cons.mp apart).1 second (by simp))

/-- Whatever its partner, a left row makes one row, which begins with its own cells. -/
theorem KeyedOnce.nestedLoop_eq {right : Table} {on : List String} (once : right.KeyedOnce on)
    (taken : List Nat) (left : List Row) :
    ∃ extra : Row → List Cell, Join.nestedLoop on .left taken left right.rows =
      left.map fun row => row.cells ++ extra row := by
  let found (row : Row) : List Row := right.rows.filter fun other => row.Agree on other
  refine ⟨fun row => taken.map fun index =>
    ((found row).head?.map fun other => other.cellAt index).getD .missing, ?_⟩
  refine Eq.trans (congrArg (fun step => left.flatMap step) (funext fun row => ?_))
    List.map_eq_flatMap.symm
  -- Without a partner the right columns are missing, as `getD` has them.
  rcases once.partners row with none | ⟨partner, one⟩
  · simp [found, none]
  · simp [found, one]

/-- A left join with unique keys has one row for each left row. -/
theorem carries_join {right : Table} {on : List String}
    (joined : table.join right on .left = .ok result) (once : right.KeyedOnce on)
    (held : ∀ name ∈ kept, name ∈ table.names) : Carries kept table result := by
  obtain ⟨leftKeys, rightKeys, retained, leftResolved, rightResolved, taken⟩ :=
    resolved_of_join joined
  obtain ⟨same, again, schema, cells⟩ := join_of_resolved leftResolved rightResolved taken
  obtain rfl : result = same := Except.ok.inj (joined.symm.trans again)
  have names : result.names = table.names ++ retained.map fun kept => kept.column.name := by
    simp [Table.names, schema, joinedSchema, Schema.names]
  obtain ⟨extra, looped⟩ := once.nestedLoop_eq (retained.map Join.RetainedColumn.position)
    table.rows
  have listed : result.rows.map Row.cells = table.rows.map fun row => row.cells ++ extra row :=
    cells.trans looped
  have sizes : result.rows.length = table.rows.length := by
    simpa using congrArg List.length listed
  refine ⟨fun name member => by rw [names]; exact List.mem_append_left _ (held name member),
    List.Perm.of_eq (List.ext_getElem (by simp [sizes]) fun index here there => ?_)⟩
  rw [List.length_map] at here there
  have own : result.rows[index].cells = table.rows[index].cells ++ extra table.rows[index] := by
    have same := congrArg (fun lists => lists[index]?) listed
    simpa [here, there] using same
  have left := table.aligned _ (List.getElem_mem there)
  have wider : result.rows[index].names =
      table.rows[index].names ++ retained.map fun kept => kept.column.name := by
    rw [result.aligned _ (List.getElem_mem here), left]
    exact names
  rw [List.getElem_map, List.getElem_map]
  exact Row.cellsUnder_of_append wider own fun name member => left ▸ held name member

end Operations

end Table

end Medals
