import Medals.Cell.Order
import Medals.Table.Basic

/-!
# Sorting

Rows are sorted by several keys, each with a direction of its own; rows that agree on all keys keep
their order, and missing cells are last in both directions.
-/

namespace Medals

/-- A column to sort by. -/
structure SortKey where
  column : String
  descending : Bool
deriving DecidableEq, Repr, Inhabited

/-- Compare two rows by the cells at the given positions, the first difference deciding. -/
def Row.compareBy : List (Nat × Bool) → Row → Row → Ordering
  | [], _, _ => .eq
  | (index, descending) :: rest, left, right =>
    (Cell.orderMissingLast descending (left.cellAt index) (right.cellAt index)).then
      (Row.compareBy rest left right)

/-- The left row need not come after the right one. -/
def Row.inOrder (keys : List (Nat × Bool)) (left right : Row) : Bool :=
  Row.compareBy keys left right != .gt

namespace Table

/-- Resolve sort keys in order; the first unknown column is the fault. -/
def bindSortKeys (names : List String) : List SortKey → Except Fault (List (Nat × Bool))
  | [] => .ok []
  | key :: rest =>
    match requirePosition names key.column with
    | .error fault => .error fault
    | .ok index =>
      match bindSortKeys names rest with
      | .error fault => .error fault
      | .ok keys => .ok ((index, key.descending) :: keys)

/-- The rows in the order of the keys. -/
def sortByKeys (table : Table) (keys : List SortKey) : Except Fault Table :=
  (bindSortKeys table.names keys).map fun bound =>
    { schema := table.schema
      rows := table.rows.mergeSort (Row.inOrder bound)
      aligned := fun row member => table.aligned row (List.mem_mergeSort.mp member) }

/-- The rows in the order of one column. -/
def sortBy (table : Table) (column : String) (descending : Bool) : Except Fault Table :=
  table.sortByKeys [⟨column, descending⟩]

end Table

end Medals
