import Medals.Proofs.Table.Binding
import Medals.Proofs.Table.NestedLoop
import Medals.Table.Sort

/-!
# When operations on tables succeed

An operation on a table succeeds when the table has the columns it asks for and lacks those it adds.
A left join that renames nothing drops the right columns whose names are taken, so that its result
has the names of both tables. A join is refused for the first key column that the right table lacks,
if the left table has them all.
-/

namespace Medals

namespace Join

/-- Without a suffix right columns are retained or dropped, and none is refused. -/
theorem retain_left (keys : List Nat) (names : List String) (columns : List (Column × Nat)) :
    ∃ retained, retain .left keys names columns = .ok retained ∧
      ∀ name, name ∈ names ++ retained.map (fun kept => kept.column.name) ↔
        name ∈ names ∨ ∃ entry ∈ columns, entry.2 ∉ keys ∧ entry.1.name = name := by
  induction columns generalizing names with
  | nil => exact ⟨[], rfl, by simp⟩
  | cons entry rest ih =>
    obtain ⟨column, index⟩ := entry
    rw [retain]
    by_cases key : index ∈ keys
    · obtain ⟨retained, kept, listed⟩ := ih names
      refine ⟨retained, by simp [key, kept], fun name => ?_⟩
      rw [listed]
      simp [key]
    · by_cases taken : column.name ∈ names
      · obtain ⟨retained, kept, listed⟩ := ih names
        have noSuffix : JoinOptions.left.rightSuffix = none := rfl
        refine ⟨retained, by simp [key, taken, noSuffix, kept], fun name => ?_⟩
        rw [listed]
        simp [key]
        grind
      · obtain ⟨retained, kept, listed⟩ := ih (names ++ [column.name])
        refine ⟨_, by simp [key, taken, kept]; rfl, fun name => ?_⟩
        have more := listed name
        simp only [List.append_assoc, List.singleton_append] at more
        rw [List.map_cons, more]
        simp [key]
        grind

/-- Key columns are refused for the first one that the layout lacks. -/
theorem keyPositions_of_lacking {layout front : List String} {name : String} (side : JoinSide)
    (known : ∀ earlier ∈ front, earlier ∈ layout) (lacking : name ∉ layout) (back : List String) :
    keyPositions layout side (front ++ name :: back) = .error (.joinKeyMissing name side) := by
  induction front with
  | nil =>
    have unfound : position? layout name = none := by simpa [← position?_isSome] using lacking
    rw [List.nil_append, keyPositions, unfound]
  | cons first rest ih =>
    obtain ⟨here, later⟩ := List.forall_mem_cons.mp known
    obtain ⟨index, found⟩ := exists_position?_iff.mpr here
    rw [List.cons_append, keyPositions, found, ih later]

end Join

namespace Table

variable {table : Table}

theorem exists_project {columns : List String} (held : ∀ name ∈ columns, name ∈ table.names) :
    ∃ result, table.project columns = .ok result ∧ result.names = columns := by
  obtain ⟨projection, bound⟩ := Projection.exists_bind_iff.mpr held
  rw [project, bound]
  exact ⟨_, rfl, (names_projectedSchema table.schema projection).trans
    (Projection.resolves_of_bind bound).1⟩

theorem exists_sortBy {column : String} (held : column ∈ table.names) (descending : Bool) :
    ∃ result, table.sortBy column descending = .ok result ∧ result.names = table.names := by
  obtain ⟨index, position⟩ := exists_requirePosition_iff.mpr held
  rw [sortBy, sortByKeys, bindSortKeys, position]
  exact ⟨_, rfl, rfl⟩

theorem exists_addColumn {name : String} (new : name ∉ table.names) (cellOf : Row → Cell) :
    ∃ result, table.addColumn name cellOf = .ok result ∧ result.names = table.names ++ [name] := by
  have absent : table.schema.contains name = false := by
    rw [Schema.contains, Schema.position?, ← Bool.not_eq_true, position?_isSome]
    exact new
  rw [addColumn, if_neg (by simp [absent])]
  exact ⟨_, rfl, by simp [names, Schema.names]⟩

/-- A left join on columns of both tables has the columns of both. -/
theorem exists_join_left {left right : Table} {on : List String}
    (leftHeld : ∀ name ∈ on, name ∈ left.names) (rightHeld : ∀ name ∈ on, name ∈ right.names) :
    ∃ joined, left.join right on .left = .ok joined ∧
      ∀ name, name ∈ joined.names ↔ name ∈ left.names ∨ name ∈ right.names := by
  obtain ⟨leftKeys, leftResolved⟩ := Resolves.exists_iff.mpr leftHeld
  obtain ⟨rightKeys, rightResolved⟩ := Resolves.exists_iff.mpr rightHeld
  obtain ⟨retained, kept, listed⟩ :=
    Join.retain_left rightKeys left.names right.schema.columns.zipIdx
  obtain ⟨joined, joins, schema, -⟩ := join_of_resolved leftResolved rightResolved kept
  refine ⟨joined, joins, fun name => ?_⟩
  have names : joined.names = left.names ++ retained.map fun kept => kept.column.name := by
    simp [Table.names, schema, joinedSchema, Schema.names]
  rw [names, listed]
  constructor
  · rintro (held | ⟨⟨column, index⟩, member, -, rfl⟩)
    · exact .inl held
    · exact .inr (List.mem_map_of_mem (List.fst_mem_of_mem_zipIdx member))
  · rintro (held | held)
    · exact .inl held
    · by_cases taken : name ∈ left.names
      · exact .inl taken
      · obtain ⟨column, member, rfl⟩ := List.mem_map.mp held
        obtain ⟨index, inside, rfl⟩ := List.getElem_of_mem member
        have placed : (right.schema.columns[index], index) ∈ right.schema.columns.zipIdx :=
          List.mem_zipIdx_iff_getElem?.mpr (by simp [inside])
        -- A key column would be a column of the left table as well.
        exact .inr ⟨_, placed, fun key => taken (leftHeld _ (name_mem_of_key rightResolved placed key)),
          rfl⟩

theorem join_of_lacking {left right : Table} {on front back : List String} {name : String}
    (split : on = front ++ name :: back) (held : ∀ key ∈ on, key ∈ left.names)
    (known : ∀ earlier ∈ front, earlier ∈ right.names) (lacking : name ∉ right.names)
    (options : JoinOptions) :
    left.join right on options = .error (.joinKeyMissing name .right) := by
  obtain ⟨leftKeys, resolved⟩ := Resolves.exists_iff.mpr held
  rw [join, Join.keyPositions_eq_ok_iff.mpr resolved, split,
    Join.keyPositions_of_lacking .right known lacking]
  rfl

end Table

end Medals
