import Medals.Proofs.Table.Carrying
import Medals.Proofs.Table.Success

/-!
# Tables that are looked up

A left join without a suffix fills up each left row from the right rows that its key leads to
(`Table.under_of_join`). With unique keys there is at most one, and the join only looks up the cells
of the columns that the left table does not have (`Table.under_of_join_once`).
-/

namespace Medals

/-- What stands under a name is found at its first position. -/
theorem lookup_zip {names : List String} {cells : List Cell} (width : cells.length = names.length)
    (name : String) :
    (names.zip cells).lookup name =
      (position? names name).map fun index => cells.getD index .missing := by
  induction names generalizing cells with
  | nil => rfl
  | cons first rest ih =>
    cases cells with
    | nil => simp at width
    | cons cell others =>
      have further := ih (show others.length = rest.length by simpa using width)
      rw [position?] at further
      rw [position?, List.findIdx?_cons, List.zip_cons_cons, List.lookup_cons, further]
      by_cases same : first = name
      · simp [same]
      · have other : (name == first) = false := by simpa using Ne.symm same
        have later : (first == name) = false := by simpa using same
        simp [other, later, Function.comp_def]

/-- Among missing cells nothing else is found. -/
theorem lookup_missing {α : Type} (elements : List α) (nameOf : α → String) (name : String) :
    ((elements.map fun element => (nameOf element, Cell.missing)).lookup name).getD .missing =
      .missing := by
  induction elements with
  | nil => rfl
  | cons element rest ih =>
    rw [List.map_cons, List.lookup_cons]
    split
    · rfl
    · exact ih

namespace Row

variable {row : Row} {name : String}

/-- The cell under a name is that of the first entry of the name. -/
theorem under_eq_lookup (row : Row) (name : String) :
    row.under name = (row.entries.lookup name).getD .missing := by
  rw [entries, lookup_zip row.width, under, get, position?]
  cases Medals.position? row.names name <;> rfl

theorem mem_names_iff : name ∈ row.names ↔ (row.entries.lookup name).isSome := by
  rw [entries, lookup_zip row.width, Option.isSome_map, position?_isSome]

theorem lookup_of_not_mem (absent : name ∉ row.names) : row.entries.lookup name = none :=
  Option.not_isSome_iff_eq_none.mp (mt mem_names_iff.mpr absent)

theorem under_of_not_mem (absent : name ∉ row.names) : row.under name = .missing := by
  rw [under_eq_lookup, lookup_of_not_mem absent, Option.getD_none]

/-- A new column changes nothing but the cell under its name. -/
theorem under_append (new : name ∉ row.names) (cell : Cell) :
    (row.append name cell).under = Function.update row.under name cell := by
  have entries : (row.append name cell).entries = row.entries ++ [(name, cell)] :=
    List.zip_append row.width.symm
  funext other
  rw [under_eq_lookup, entries, List.lookup_append]
  by_cases same : other = name
  · subst same
    simp [lookup_of_not_mem new]
  · have apart : (other == name) = false := by simpa using same
    simp [Function.update_of_ne same, under_eq_lookup, apart, List.lookup_cons]

/-- The cells of a row of some columns, filled up from a partner under all other names. -/
def filledFrom (names : List String) (row : Row) (partner? : Option Row) (name : String) : Cell :=
  if name ∈ names then row.under name
  else (partner?.map fun partner => partner.under name).getD .missing

end Row

namespace Join

/-- Under a new name that is not that of a key column, the retained columns have what all columns
have. -/
theorem lookup_retain {keys : List Nat} {names : List String} {columns : List (Column × Nat)}
    {retained : List RetainedColumn} (kept : retain .left keys names columns = .ok retained)
    {name : String} (new : name ∉ names)
    (unkeyed : ∀ entry ∈ columns, entry.1.name = name → entry.2 ∉ keys) (cellAt : Nat → Cell) :
    (retained.map fun column => (column.column.name, cellAt column.position)).lookup name =
      (columns.map fun entry => (entry.1.name, cellAt entry.2)).lookup name := by
  induction columns generalizing names retained with
  | nil =>
    obtain rfl : [] = retained := by simpa [retain] using kept
    rfl
  | cons entry rest ih =>
    obtain ⟨column, index⟩ := entry
    have others : ∀ entry ∈ rest, entry.1.name = name → entry.2 ∉ keys := fun entry later =>
      unkeyed entry (List.mem_cons_of_mem _ later)
    rw [List.map_cons, List.lookup_cons]
    rw [retain] at kept
    by_cases key : index ∈ keys
    · have apart : (name == column.name) = false := by
        have := mt (unkeyed (column, index) List.mem_cons_self) (not_not_intro key)
        simpa using Ne.symm this
      simp only [List.contains_iff_mem, key, if_true] at kept
      rw [apart]
      exact ih kept new others
    · by_cases taken : column.name ∈ names
      · have apart : (name == column.name) = false := by
          simpa using fun same : name = column.name => new (same ▸ taken)
        have noSuffix : JoinOptions.left.rightSuffix = none := rfl
        simp only [List.contains_iff_mem, key, if_false, taken, if_true, noSuffix,
          Option.map_none] at kept
        rw [apart]
        exact ih kept new others
      · simp only [List.contains_iff_mem, key, taken, if_false] at kept
        cases further : retain .left keys (names ++ [column.name]) rest with
        | error => simp [further] at kept
        | ok retained =>
          simp only [further, Except.ok.injEq] at kept
          subst kept
          rw [List.map_cons, List.lookup_cons]
          by_cases same : name = column.name
          · simp [same]
          · have apart : (name == column.name) = false := by simpa using same
            simp only [apart]
            exact ih further (by simp [new, same]) others

end Join

namespace Table

variable {table right joined result : Table} {on : List String}

/-- The rows that a key under some names leads to. A key with a missing part leads to none. -/
def rowsOf (table : Table) (on : List String) (key : List CellKey) : List Row :=
  if CellKey.missing ∈ key then [] else table.rows.filter fun row => row.keysUnder on = key

/-- What a left join pairs a key with: the rows that it leads to, or none if there are none. -/
def partners (table : Table) (on : List String) (key : List CellKey) : List (Option Row) :=
  match table.rowsOf on key with
  | [] => [none]
  | found => found.map some

/-- The cell under a name in the row that a key leads to; without such a row it is missing. -/
def lookup (table : Table) (on : List String) (key : List CellKey) (name : String) : Cell :=
  ((table.rowsOf on key).head?.map fun row => row.under name).getD .missing

theorem filter_agree (table : Table) (on : List String) (row : Row) :
    (table.rows.filter fun other => row.Agree on other) = table.rowsOf on (row.keysUnder on) := by
  by_cases missing : CellKey.missing ∈ row.keysUnder on
  · simp [rowsOf, Row.Agree, missing]
  · simp [rowsOf, Row.Agree, missing, eq_comm]

theorem mem_of_mem_rowsOf {key : List CellKey} {row : Row} (member : row ∈ table.rowsOf on key) :
    row ∈ table.rows := by
  unfold rowsOf at member
  split at member
  · simp at member
  · exact (List.mem_filter.mp member).1

/-- The entries of a row are those of the columns of its table, position by position. -/
theorem entries_eq {row : Row} (member : row ∈ table.rows) :
    row.entries =
      table.schema.columns.zipIdx.map fun entry => (entry.1.name, row.cellAt entry.2) := by
  have names : row.names = table.schema.columns.map Column.name := table.aligned row member
  have width : row.cells.length = table.schema.columns.length := by rw [row.width, names]; simp
  refine List.ext_getElem (by simp [Row.entries, names, width]) fun index here there => ?_
  have inside : index < row.cells.length := by simp [Row.entries] at here; omega
  simp [Row.entries, names, Row.cellAt, inside]

theorem mem_names_of_join (joins : table.join right on .left = .ok joined) (name : String) :
    name ∈ joined.names ↔ name ∈ table.names ∨ name ∈ right.names := by
  obtain ⟨_, _, _, leftResolved, rightResolved, -⟩ := resolved_of_join joins
  obtain ⟨same, again, names⟩ := exists_join_left (Resolves.exists_iff.mp ⟨_, leftResolved⟩)
    (Resolves.exists_iff.mp ⟨_, rightResolved⟩)
  obtain rfl : joined = same := Except.ok.inj (joins.symm.trans again)
  exact names name

/-- A row with retained cells behind it has its own cells under its own names, and under other names
what all columns of the right table would have there. -/
theorem lookup_of_retained {keys : List Nat} {retained : List Join.RetainedColumn}
    (rightResolved : Resolves right.names on keys) (held : ∀ name ∈ on, name ∈ table.names)
    (kept : Join.retain .left keys table.names right.schema.columns.zipIdx = .ok retained)
    {row : Row} (aligned : row.names = table.names) (cellAt : Nat → Cell) (name : String) :
    (((table.names ++ retained.map fun kept => kept.column.name).zip
        (row.cells ++ (retained.map Join.RetainedColumn.position).map cellAt)).lookup name).getD
          .missing =
      if name ∈ table.names then row.under name
      else ((right.schema.columns.zipIdx.map fun entry =>
        (entry.1.name, cellAt entry.2)).lookup name).getD .missing := by
  rw [← aligned, List.zip_append row.width.symm, List.map_map, List.zip_map', List.lookup_append]
  by_cases own : name ∈ row.names
  · obtain ⟨cell, found⟩ := Option.isSome_iff_exists.mp (Row.mem_names_iff.mp own)
    have entries : (row.names.zip row.cells).lookup name = some cell := found
    rw [if_pos own, Row.under_eq_lookup, found, entries, Option.some_or]
  · have entries : (row.names.zip row.cells).lookup name = none := Row.lookup_of_not_mem own
    have unkeyed : ∀ entry ∈ right.schema.columns.zipIdx, entry.1.name = name → entry.2 ∉ keys :=
      fun entry member same key =>
        own (aligned ▸ held name (same ▸ name_mem_of_key rightResolved member key))
    have found := Join.lookup_retain (aligned ▸ kept) own unkeyed cellAt
    rw [if_neg own, entries, Option.none_or]
    exact congrArg (fun cell : Option Cell => cell.getD .missing) found

/-- A left join without a suffix fills up each left row from each of its partners. -/
theorem under_of_join (joins : table.join right on .left = .ok joined) :
    joined.rows.map Row.under = table.rows.flatMap fun row =>
      (right.partners on (row.keysUnder on)).map (row.filledFrom table.names) := by
  obtain ⟨leftKeys, rightKeys, retained, leftResolved, rightResolved, kept⟩ :=
    resolved_of_join joins
  obtain ⟨same, again, schema, cells⟩ := join_of_resolved leftResolved rightResolved kept
  obtain rfl : joined = same := Except.ok.inj (joins.symm.trans again)
  have names : joined.names = table.names ++ retained.map fun kept => kept.column.name := by
    simp [Table.names, schema, joinedSchema, Schema.names]
  let read (cells : List Cell) (name : String) : Cell :=
    ((joined.names.zip cells).lookup name).getD .missing
  have under : joined.rows.map Row.under = (joined.rows.map Row.cells).map read := by
    rw [List.map_map]
    refine List.map_congr_left fun row member => funext fun name => ?_
    have names : row.names = joined.names := joined.aligned row member
    rw [Row.under_eq_lookup, Row.entries, names]
    rfl
  have filled (row : Row) (member : row ∈ table.rows) (cellAt : Nat → Cell) (name : String) :
      read (row.cells ++ (retained.map Join.RetainedColumn.position).map cellAt) name =
        if name ∈ table.names then row.under name
        else ((right.schema.columns.zipIdx.map fun entry =>
          (entry.1.name, cellAt entry.2)).lookup name).getD .missing := by
    simp only [read, names]
    exact lookup_of_retained rightResolved (Resolves.exists_iff.mp ⟨_, leftResolved⟩) kept
      (table.aligned row member) cellAt name
  rw [under, cells, Join.nestedLoop, List.map_flatMap, List.flatMap_def, List.flatMap_def]
  refine congrArg List.flatten (List.map_congr_left fun row member => ?_)
  rw [filter_agree, partners]
  cases found : right.rowsOf on (row.keysUnder on) with
  | nil =>
    refine congrArg (fun reading => [reading]) (funext fun name => ?_)
    exact (filled row member (fun _ => .missing) name).trans (by rw [lookup_missing]; rfl)
  | cons first rest =>
    have each : ∀ other ∈ first :: rest,
        read (row.cells ++ (retained.map Join.RetainedColumn.position).map other.cellAt) =
          row.filledFrom table.names (some other) := fun other listed => funext fun name => by
      have entries := entries_eq (mem_of_mem_rowsOf (found ▸ listed))
      refine (filled row member other.cellAt name).trans ?_
      rw [← entries, ← Row.under_eq_lookup]
      rfl
    change ((first :: rest).map _).map read = ((first :: rest).map some).map _
    rw [List.map_map, List.map_map]
    exact List.map_congr_left each

/-- A left join looks up the cells of the columns that the left table does not have, where the keys
of the left table lead to at most one row each. -/
theorem under_of_join_alone (joins : table.join right on .left = .ok joined)
    (alone : ∀ row ∈ table.rows, (right.rowsOf on (row.keysUnder on)).length ≤ 1) :
    joined.rows.map Row.under = table.rows.map fun row name =>
      if name ∈ table.names then row.under name
      else right.lookup on (row.keysUnder on) name := by
  rw [under_of_join joins, List.map_eq_flatMap, List.flatMap_def, List.flatMap_def]
  refine congrArg List.flatten (List.map_congr_left fun row member => ?_)
  have few := alone row member
  unfold partners lookup
  match found : right.rowsOf on (row.keysUnder on) with
  | [] => rfl
  | [partner] => rfl
  | first :: second :: rest => simp [found] at few

/-- A left join with unique keys looks up the cells of the columns that the left table does not
have. -/
theorem under_of_join_once (joins : table.join right on .left = .ok joined)
    (once : right.KeyedOnce on) :
    joined.rows.map Row.under = table.rows.map fun row name =>
      if name ∈ table.names then row.under name
      else right.lookup on (row.keysUnder on) name := by
  refine under_of_join_alone joins fun row _ => ?_
  rw [← filter_agree]
  rcases once.partners row with none | ⟨partner, one⟩
  · simp [none]
  · simp [one]

/-- A choice of columns has the rows of a key of these columns that the whole table has. -/
theorem rowsOf_of_project {columns : List String}
    (projects : table.project columns = .ok result) (keys : ∀ name ∈ on, name ∈ columns)
    (key : List CellKey) :
    result.rowsOf on key = (table.rowsOf on key).map fun row => row.narrow columns := by
  obtain ⟨-, rows⟩ := narrow_of_project projects
  unfold rowsOf
  split
  · rfl
  · rw [rows, List.filter_map]
    refine congrArg _ (List.filter_congr fun row _ => ?_)
    have same : (row.narrow columns).keysUnder on = row.keysUnder on :=
      List.map_congr_left fun name keyed => by rw [Row.under_narrow (keys name keyed)]
    rw [Function.comp_apply, same]

/-- A choice of columns with the key columns among them is looked up as the whole table is. -/
theorem lookup_of_project {columns : List String} (projects : table.project columns = .ok result)
    (keys : ∀ name ∈ on, name ∈ columns) {name : String} (chosen : name ∈ columns)
    (key : List CellKey) : result.lookup on key name = table.lookup on key name := by
  rw [lookup, lookup, rowsOf_of_project projects keys]
  cases table.rowsOf on key with
  | nil => rfl
  | cons row rest => exact Row.under_narrow chosen

theorem new_of_addColumn {name : String} {cellOf : Row → Cell}
    (adds : table.addColumn name cellOf = .ok result) : name ∉ table.names := by
  unfold addColumn at adds
  split at adds
  · simp at adds
  · next absent => exact mt position?_isSome.mpr absent

/-- A table with a computed column. -/
theorem under_of_addColumn {name : String} {cellOf : Row → Cell}
    (adds : table.addColumn name cellOf = .ok result) :
    result.names = table.names ++ [name] ∧
      result.rows.map Row.under =
        table.rows.map fun row => Function.update row.under name (cellOf row) := by
  have new : name ∉ table.names := new_of_addColumn adds
  have absent : ¬ table.schema.contains name = true := mt position?_isSome.mp new
  rw [addColumn, if_neg absent] at adds
  obtain rfl := Except.ok.inj adds
  refine ⟨by simp [names, Schema.names], ?_⟩
  rw [List.map_map]
  refine List.map_congr_left fun row member => Row.under_append ?_ _
  rwa [table.aligned row member]

end Table

end Medals
