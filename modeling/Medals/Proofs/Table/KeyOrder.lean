import Medals.Proofs.Stream.SortedPage
import Medals.Proofs.Table.Refusals

/-!
# Sorting by several keys

`Table.sortByKeys` compares rows by one key after the other, each in its own direction, until one of
them tells the rows apart. `Table.sortByKeys_stable` says that this is a stable order of the rows as
long as the integers in the key columns are ones on which the order of cells is transitive, that
sorting by one key at a time from the last to the first makes the same table
(`Table.sortedStepwise`), and that the first key without a column is the only reason to fail.
-/

namespace Medals

namespace SortKey

/-- Compare rows by the column of a key, integers rounded to doubles. -/
def roundedOrder (key : SortKey) (left right : Row) : Ordering :=
  Cell.roundedMissingLast key.descending (left.under key.column) (right.under key.column)

instance (key : SortKey) : Std.TransCmp key.roundedOrder :=
  transCmp_on (Cell.roundedMissingLast key.descending) fun row : Row => row.under key.column

/-- The row has cells in the columns of the keys on which their order is transitive. -/
def Admit (keys : List SortKey) (row : Row) : Prop :=
  ∀ key ∈ keys, (row.under key.column).Exact

instance (keys : List SortKey) (row : Row) : Decidable (Admit keys row) :=
  inferInstanceAs (Decidable (∀ key ∈ keys, (row.under key.column).Exact))

theorem roundedOrder_eq {key : SortKey} {left right : Row}
    (leftExact : (left.under key.column).Exact) (rightExact : (right.under key.column).Exact) :
    key.roundedOrder left right = key.order left right :=
  Cell.roundedMissingLast_eq key.descending leftExact rightExact

/-- On admitted rows it makes no difference whether integers are rounded. -/
theorem lexicographic_roundedOrder_eq {keys : List SortKey} {left right : Row}
    (leftAdmitted : Admit keys left) (rightAdmitted : Admit keys right) :
    lexicographic roundedOrder keys left right = lexicographic order keys left right :=
  lexicographic_congr fun key member =>
    roundedOrder_eq (leftAdmitted key member) (rightAdmitted key member)

end SortKey

namespace Table

variable {keys : List SortKey}

theorem bindSortKeys_eq (layout : List String) (keys : List SortKey) :
    bindSortKeys layout keys = keys.mapM fun key =>
      (requirePosition layout key.column).map fun index => (index, key.descending) := by
  induction keys with
  | nil => rfl
  | cons key rest ih =>
    rw [bindSortKeys, List.mapM_cons, ← ih]
    cases requirePosition layout key.column with
    | error => rfl
    | ok index => cases bindSortKeys layout rest <;> rfl

theorem fault?_bindSortKeys (layout : List String) (keys : List SortKey) :
    fault? (bindSortKeys layout keys) = missingColumn? layout (keys.map SortKey.column) := by
  rw [bindSortKeys_eq, fault?_mapM, missingColumn?_eq_findSome?, List.findSome?_map]
  simp only [fault?_map, Function.comp_def]

/-- Sorting fails for the first key whose column the table lacks, and for no other reason. -/
theorem sortByKeys_eq_error_iff {table : Table} {fault : Fault} :
    table.sortByKeys keys = .error fault ↔ ∃ front key back, keys = front ++ key :: back ∧
      (∀ earlier ∈ front, earlier.column ∈ table.names) ∧ key.column ∉ table.names ∧
      fault = .unknownColumn key.column := by
  rw [← fault?_eq_some_iff, sortByKeys, fault?_map, fault?_bindSortKeys,
    missingColumn?_map_eq_some_iff]

/-- A table can be sorted by keys that it has. -/
theorem exists_sortByKeys {table : Table} (known : ∀ key ∈ keys, key.column ∈ table.names) :
    ∃ sorted, table.sortByKeys keys = .ok sorted := by
  cases sorts : table.sortByKeys keys with
  | ok sorted => exact ⟨sorted, rfl⟩
  | error fault =>
    obtain ⟨front, key, back, rfl, -, lacking, -⟩ := sortByKeys_eq_error_iff.mp sorts
    exact absurd (known key (List.mem_append_right _ List.mem_cons_self)) lacking

/-- Rows are compared at the positions of the keys as under their columns. -/
theorem compareBy_of_bind {layout : List String} {bound : List (Nat × Bool)}
    (binds : bindSortKeys layout keys = .ok bound) {left right : Row}
    (leftAligned : left.names = layout) (rightAligned : right.names = layout) :
    Row.compareBy bound left right = lexicographic SortKey.order keys left right := by
  rw [bindSortKeys_eq, mapM_eq_ok_iff] at binds
  induction binds with
  | nil => rfl
  | @cons key _ rest further first _ ih =>
    obtain ⟨index, found, rfl⟩ := map_eq_ok_iff.mp first
    have position := requirePosition_eq_ok_iff.mp found
    have compared : key.order left right =
        Cell.orderMissingLast key.descending (left.cellAt index) (right.cellAt index) := by
      rw [SortKey.order, Row.under_eq_cellAt (leftAligned ▸ position),
        Row.under_eq_cellAt (rightAligned ▸ position)]
    rw [Row.compareBy, ih, ← compared]
    rfl

/-- Sorted rows are in the order of their cells under the columns of the keys. -/
theorem rows_of_sortByKeys {table sorted : Table} (sorts : table.sortByKeys keys = .ok sorted) :
    sorted.schema = table.schema ∧ sorted.rows = table.rows.mergeSort fun left right =>
      lexicographic SortKey.order keys left right != .gt := by
  obtain ⟨bound, binds, rfl⟩ := map_eq_ok_iff.mp sorts
  refine ⟨rfl, mergeSort_congr fun left one right other => ?_⟩
  rw [Row.inOrder, compareBy_of_bind binds (table.aligned left one) (table.aligned right other)]

/-- Sorting by keys that a table has is stable on admitted rows. -/
theorem stableOrder_of_sortByKeys {table sorted : Table}
    (admitted : ∀ row ∈ table.rows, SortKey.Admit keys row)
    (sorts : table.sortByKeys keys = .ok sorted) :
    sorted.schema = table.schema ∧
      StableOrder (lexicographic SortKey.order keys) table.rows sorted.rows := by
  obtain ⟨schema, rows⟩ := rows_of_sortByKeys sorts
  refine ⟨schema, ?_⟩
  rw [rows]
  exact StableOrder.mergeSort_of_agrees (fun left one right other =>
    SortKey.lexicographic_roundedOrder_eq (admitted left one) (admitted right other))
    fun _ _ _ _ => rfl

/-- Admitted rows have one stable order. -/
theorem eq_of_stableOrder {rows one other : List Row}
    (admitted : ∀ row ∈ rows, SortKey.Admit keys row)
    (first : StableOrder (lexicographic SortKey.order keys) rows one)
    (second : StableOrder (lexicographic SortKey.order keys) rows other) : one = other :=
  first.unique_of_agrees (fun left one right other =>
    SortKey.lexicographic_roundedOrder_eq (admitted left one) (admitted right other)) second

/-- Tables of one schema with the same rows are the same. -/
theorem ext_rows {left right : Table} (schema : left.schema = right.schema)
    (rows : left.rows = right.rows) : left = right :=
  ext_cells schema (congrArg (List.map Row.cells) rows)

/-- Sort by one key at a time, the first one last. -/
def sortedStepwise (table : Table) (keys : List SortKey) : Except Fault Table :=
  keys.reverse.foldlM (fun found key => found.sortBy key.column key.descending) table

theorem sortedStepwise_cons (table : Table) (key : SortKey) (keys : List SortKey) :
    table.sortedStepwise (key :: keys) =
      table.sortedStepwise keys >>= fun found => found.sortBy key.column key.descending := by
  simp only [sortedStepwise, List.reverse_cons, List.foldlM_append, List.foldlM_cons,
    List.foldlM_nil, bind_pure]

/-- Sorting by one key at a time is stable on admitted rows, in the order of all keys. -/
theorem exists_sortedStepwise {table : Table} (known : ∀ key ∈ keys, key.column ∈ table.names)
    (admitted : ∀ row ∈ table.rows, SortKey.Admit keys row) :
    ∃ sorted, table.sortedStepwise keys = .ok sorted ∧ sorted.schema = table.schema ∧
      StableOrder (lexicographic SortKey.order keys) table.rows sorted.rows := by
  induction keys with
  | nil => exact ⟨table, rfl, rfl, .of_ordered (List.pairwise_of_forall fun _ _ => by
      simp [lexicographic])⟩
  | cons key rest ih =>
    obtain ⟨listed, others⟩ := List.forall_mem_cons.mp known
    obtain ⟨middle, steps, schema, inner⟩ := ih others fun row member further later =>
      admitted row member further (List.mem_cons_of_mem key later)
    have keyAdmitted : ∀ row ∈ middle.rows, SortKey.Admit [key] row := by
      intro row member only single
      obtain rfl := List.mem_singleton.mp single
      exact admitted row (inner.perm.mem_iff.mp member) only List.mem_cons_self
    have keyKnown : ∀ only ∈ [key], only.column ∈ middle.names := by
      intro only single
      obtain rfl := List.mem_singleton.mp single
      rwa [names, schema]
    obtain ⟨sorted, sorts⟩ := exists_sortByKeys keyKnown
    obtain ⟨same, outer⟩ := stableOrder_of_sortByKeys keyAdmitted sorts
    refine ⟨sorted, ?_, same.trans schema, ?_⟩
    · rw [sortedStepwise_cons, steps]
      exact sorts
    · -- The key is compared with integers rounded, so that every row ties with itself.
      have rounded : StableOrder key.roundedOrder middle.rows sorted.rows :=
        outer.congr fun left one right other => by
          rw [SortKey.roundedOrder_eq (keyAdmitted left one key List.mem_cons_self)
            (keyAdmitted right other key List.mem_cons_self)]
          exact Ordering.then_eq
      refine (inner.refine rounded).congr fun left one right other => ?_
      rw [SortKey.roundedOrder_eq (admitted left one key List.mem_cons_self)
        (admitted right other key List.mem_cons_self)]
      rfl

/-- Sorting by several keys fails for the first of them whose column the table lacks, and for no
other reason. On rows in whose key columns integers are at most `2 ^ 53` in magnitude it is a stable
order by the keys, the first that tells two rows apart deciding; sorting by one key at a time, from
the last to the first, makes the same table, and sorting the sorted table changes nothing. -/
theorem sortByKeys_stable (table : Table) (keys : List SortKey) :
    (∀ fault, table.sortByKeys keys = .error fault ↔ ∃ front key back,
      keys = front ++ key :: back ∧ (∀ earlier ∈ front, earlier.column ∈ table.names) ∧
        key.column ∉ table.names ∧ fault = .unknownColumn key.column) ∧
    ((∀ key ∈ keys, key.column ∈ table.names) → (∀ row ∈ table.rows, SortKey.Admit keys row) →
      ∃ sorted, table.sortByKeys keys = .ok sorted ∧ sorted.schema = table.schema ∧
        StableOrder (lexicographic SortKey.order keys) table.rows sorted.rows ∧
        table.sortedStepwise keys = .ok sorted ∧ sorted.sortByKeys keys = .ok sorted) := by
  refine ⟨fun fault => sortByKeys_eq_error_iff, fun known admitted => ?_⟩
  obtain ⟨sorted, sorts⟩ := exists_sortByKeys known
  obtain ⟨schema, stable⟩ := stableOrder_of_sortByKeys admitted sorts
  refine ⟨sorted, sorts, schema, stable, ?_, ?_⟩
  · obtain ⟨stepwise, steps, sameSchema, alsoStable⟩ := exists_sortedStepwise known admitted
    rw [steps, ext_rows (sameSchema.trans schema.symm)
      (eq_of_stableOrder admitted alsoStable stable)]
  · have sortedAdmitted : ∀ row ∈ sorted.rows, SortKey.Admit keys row := fun row member =>
      admitted row (stable.perm.mem_iff.mp member)
    have sortedKnown : ∀ key ∈ keys, key.column ∈ sorted.names := by
      rwa [names, schema]
    obtain ⟨again, sortsAgain⟩ := exists_sortByKeys sortedKnown
    obtain ⟨sameSchema, alsoStable⟩ := stableOrder_of_sortByKeys sortedAdmitted sortsAgain
    rw [sortsAgain, ext_rows sameSchema
      (eq_of_stableOrder sortedAdmitted alsoStable (.of_ordered stable.ordered))]

/-- By year downwards and then by rank, the row without a rank comes last in its year. -/
theorem sortByKeys_of_four_rows :
    let rows : List Row :=
      [⟨["Year", "Rank"], [.integer 2008, .integer 2], rfl⟩,
        ⟨["Year", "Rank"], [.integer 2012, .missing], rfl⟩,
        ⟨["Year", "Rank"], [.integer 2008, .integer 1], rfl⟩,
        ⟨["Year", "Rank"], [.integer 2012, .integer 3], rfl⟩]
    let table : Table := ⟨Schema.infer ["Year", "Rank"] rows, rows, by decide⟩
    ∃ sorted, table.sortByKeys [⟨"Year", true⟩, ⟨"Rank", false⟩] = .ok sorted ∧
      table.sortedStepwise [⟨"Year", true⟩, ⟨"Rank", false⟩] = .ok sorted ∧
      sorted.rows.map Row.cells = [[.integer 2012, .integer 3], [.integer 2012, .missing],
        [.integer 2008, .integer 1], [.integer 2008, .integer 2]] := by
  intro rows table
  obtain ⟨sorted, sorts, -, -, steps, -⟩ := (sortByKeys_stable table
    [⟨"Year", true⟩, ⟨"Rank", false⟩]).2 (by decide) (by decide)
  have cells : (table.sortByKeys [⟨"Year", true⟩, ⟨"Rank", false⟩]).map
      (fun sorted => sorted.rows.map Row.cells) =
        .ok [[.integer 2012, .integer 3], [.integer 2012, .missing],
          [.integer 2008, .integer 1], [.integer 2008, .integer 2]] := by
    cbv
  rw [sorts] at cells
  exact ⟨sorted, sorts, steps, Except.ok.inj cells⟩

end Table

end Medals
