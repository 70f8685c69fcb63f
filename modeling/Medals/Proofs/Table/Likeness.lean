import Medals.Proofs.Table.KeyOrder
import Medals.Proofs.Table.Lookup

/-!
# Tables alike but for one column

Tables are alike but for a column when they have the same names and, row for row, the same cells
under all other names (`Table.AlikeBut`); the order of their columns is left open. Operations that
do not look at that column make tables alike of them, or are refused with the same fault (`Concur`),
and a choice of other columns makes the same rows of both (`Table.AlikeBut.project`).
-/

namespace Medals

/-- The cells under names, with nothing under one of them. -/
def hide (column : String) (cells : String → Cell) : String → Cell :=
  Function.update cells column .missing

section Hide

variable {column : String} {cells others : String → Cell}

theorem hide_eq_iff : hide column cells = hide column others ↔
    ∀ name, name ≠ column → cells name = others name := by
  constructor
  · intro same name apart
    have there := congrFun same name
    rwa [hide, hide, Function.update_of_ne apart, Function.update_of_ne apart] at there
  · intro same
    funext name
    by_cases here : name = column
    · rw [hide, hide, here, Function.update_self, Function.update_self]
    · rw [hide, hide, Function.update_of_ne here, Function.update_of_ne here, same name here]

theorem hide_update (same : hide column cells = hide column others) (name : String) (cell : Cell) :
    hide column (Function.update cells name cell) =
      hide column (Function.update others name cell) := by
  refine hide_eq_iff.mpr fun further apart => ?_
  by_cases here : further = name
  · rw [here, Function.update_self, Function.update_self]
  · rw [Function.update_of_ne here, Function.update_of_ne here, hide_eq_iff.mp same further apart]

end Hide

namespace SortKey

/-- Compare the cells under the column of a key, missing ones last. -/
def orderCells (key : SortKey) (cells others : String → Cell) : Ordering :=
  Cell.orderMissingLast key.descending (cells key.column) (others key.column)

/-- Keys of other columns compare rows as they do without the hidden one. -/
theorem lexicographic_hide {keys : List SortKey} {column : String}
    (apart : ∀ key ∈ keys, key.column ≠ column) (left right : Row) :
    lexicographic order keys left right =
      lexicographic orderCells keys (hide column left.under) (hide column right.under) := by
  have compared : lexicographic order keys left right = lexicographic (fun key (one other : Row) =>
      orderCells key (hide column one.under) (hide column other.under)) keys left right := by
    refine lexicographic_congr fun key member => ?_
    simp only [order, orderCells, hide, Function.update_of_ne (apart key member)]
  exact compared

end SortKey

theorem missingColumn?_congr {layout other : List String}
    (same : ∀ name, name ∈ layout ↔ name ∈ other) (names : List String) :
    missingColumn? layout names = missingColumn? other names := by
  simp only [missingColumn?, same]

namespace Table

variable {table other : Table} {column name : String}

/-- The tables have the same names and, in the same order, the same rows, but for the cells of one
column. -/
structure AlikeBut (column : String) (table other : Table) : Prop where
  names : ∀ name, name ∈ table.names ↔ name ∈ other.names
  rows : (table.rows.map fun row => hide column row.under) =
    other.rows.map fun row => hide column row.under

theorem fault?_project (table : Table) (columns : List String) :
    fault? (table.project columns) = missingColumn? table.names columns :=
  (fault?_map _ _).trans (Projection.fault?_bind columns)

namespace AlikeBut

/-- What is read of the rows without the column is the same. -/
theorem map_eq {α : Type} [Nonempty α] {read : Row → α} (alike : AlikeBut column table other)
    (factors : ∀ row other, hide column row.under = hide column other.under →
      read row = read other) : table.rows.map read = other.rows.map read := by
  obtain ⟨made, rfl⟩ := (Function.factorsThrough_iff read).mp fun row other => factors row other
  have same := congrArg (List.map made) alike.rows
  rwa [List.map_map, List.map_map] at same

theorem addColumn {cellOf : Row → Cell} (alike : AlikeBut column table other)
    (factors : ∀ row other, hide column row.under = hide column other.under →
      cellOf row = cellOf other) :
    Concur (AlikeBut column) (table.addColumn name cellOf) (other.addColumn name cellOf) := by
  by_cases taken : name ∈ table.names
  · have here : table.schema.contains name = true := position?_isSome.mpr taken
    have there : other.schema.contains name = true :=
      position?_isSome.mpr ((alike.names name).mp taken)
    rw [Table.addColumn, if_pos here, Table.addColumn, if_pos there]
    exact .fault _
  · obtain ⟨result, adds, names⟩ := exists_addColumn taken cellOf
    obtain ⟨further, again, others⟩ :=
      exists_addColumn (mt (alike.names name).mpr taken) cellOf
    rw [adds, again]
    refine .value ⟨fun listed => ?_, ?_⟩
    · rw [names, others, List.mem_append, List.mem_append, alike.names]
    · have under (rows : List Row) : (rows.map fun row => hide column row.under) =
          (rows.map Row.under).map (hide column) := by
        rw [List.map_map]
        rfl
      rw [under, under, (under_of_addColumn adds).2, (under_of_addColumn again).2, List.map_map,
        List.map_map]
      refine alike.map_eq fun row other same => ?_
      rw [Function.comp_apply, Function.comp_apply, factors row other same]
      exact hide_update same name _

/-- Tables are sorted alike by other columns. -/
theorem sortByKeys {keys : List SortKey} (alike : AlikeBut column table other)
    (apart : ∀ key ∈ keys, key.column ≠ column) :
    Concur (AlikeBut column) (table.sortByKeys keys) (other.sortByKeys keys) := by
  refine .of_fault? ?_ fun sorted resorted sorts again => ?_
  · rw [Table.sortByKeys, Table.sortByKeys, fault?_map, fault?_map, fault?_bindSortKeys,
      fault?_bindSortKeys, missingColumn?_congr alike.names]
  · obtain ⟨schema, rows⟩ := rows_of_sortByKeys sorts
    obtain ⟨schema', rows'⟩ := rows_of_sortByKeys again
    refine ⟨?_, ?_⟩
    · rw [Table.names, schema, Table.names, schema']
      exact alike.names
    · have commutes (rows : List Row) := @List.map_mergeSort _ _ _
        (fun cells others => lexicographic SortKey.orderCells keys cells others != .gt)
        (fun row : Row => hide column row.under) rows fun left _ right _ =>
          congrArg (· != Ordering.gt) (SortKey.lexicographic_hide apart left right)
      rw [rows, rows', commutes, commutes, alike.rows]

theorem head (alike : AlikeBut column table other) (length : Nat) :
    AlikeBut column (table.head length) (other.head length) where
  names := alike.names
  rows := by
    simpa [Table.head, slice] using congrArg (List.take length) alike.rows

/-- A choice of other columns is the same of both. -/
theorem project {columns : List String} (alike : AlikeBut column table other)
    (apart : column ∉ columns) :
    Concur (fun answer further => answer.names = further.names ∧ answer.rows = further.rows)
      (table.project columns) (other.project columns) := by
  refine .of_fault? ?_ fun answer further projects again => ?_
  · rw [fault?_project, fault?_project, missingColumn?_congr alike.names]
  · obtain ⟨names, rows⟩ := narrow_of_project projects
    obtain ⟨others, further⟩ := narrow_of_project again
    refine ⟨names.trans others.symm, ?_⟩
    rw [rows, further]
    refine alike.map_eq fun row other same => Row.ext_cells rfl ?_
    refine List.map_congr_left fun name listed => hide_eq_iff.mp same name ?_
    rintro rfl
    exact apart listed

end AlikeBut

end Table

end Medals
