import Medals.Proofs.Table.Lookup

/-!
# Tables in another order

Tables mirror each other that have the same rows in any order, where of the cells of one column only
the keys need to be the same (`Table.Mirrors`). What joins and computed columns make of them mirrors
each other again, since neither looks further than the keys of that column.
-/

namespace Medals

/-- The cells under names, but of one of them only its key. -/
def blur (column : String) (cells : String → Cell) : CellKey × (String → Cell) :=
  ((cells column).key, Function.update cells column .missing)

section Blur

variable {column : String} {cells others : String → Cell}

theorem blur_eq_iff : blur column cells = blur column others ↔
    (cells column).key = (others column).key ∧
      ∀ name, name ≠ column → cells name = others name := by
  rw [blur, blur, Prod.mk.injEq]
  refine and_congr_right fun _ => ⟨fun same name apart => ?_, fun same => ?_⟩
  · have there := congrFun same name
    rwa [Function.update_of_ne apart, Function.update_of_ne apart] at there
  · funext name
    by_cases here : name = column
    · rw [here, Function.update_self, Function.update_self]
    · rw [Function.update_of_ne here, Function.update_of_ne here, same name here]

theorem key_of_blur (same : blur column cells = blur column others) (name : String) :
    (cells name).key = (others name).key := by
  obtain ⟨key, rest⟩ := blur_eq_iff.mp same
  by_cases here : name = column
  · rw [here, key]
  · rw [rest name here]

end Blur

section Rows

variable {column : String} {row other : Row}
  (same : blur column row.under = blur column other.under)

include same

theorem keysUnder_of_blur (on : List String) : row.keysUnder on = other.keysUnder on :=
  List.map_congr_left fun name _ => key_of_blur same name

theorem blur_filledFrom {names : List String} (held : column ∈ names) (partner? : Option Row) :
    blur column (row.filledFrom names partner?) = blur column (other.filledFrom names partner?) := by
  obtain ⟨key, rest⟩ := blur_eq_iff.mp same
  refine blur_eq_iff.mpr ⟨?_, fun name apart => ?_⟩
  · rw [Row.filledFrom, Row.filledFrom, if_pos held, if_pos held, key]
  · rw [Row.filledFrom, Row.filledFrom, rest name apart]

theorem blur_update {name : String} (apart : name ≠ column) (cell : Cell) :
    blur column (Function.update row.under name cell) =
      blur column (Function.update other.under name cell) := by
  obtain ⟨key, rest⟩ := blur_eq_iff.mp same
  refine blur_eq_iff.mpr ⟨?_, fun further different => ?_⟩
  · rw [Function.update_of_ne apart.symm, Function.update_of_ne apart.symm, key]
  · by_cases here : further = name
    · rw [here, Function.update_self, Function.update_self]
    · rw [Function.update_of_ne here, Function.update_of_ne here, rest further different]

end Rows

/-- What is made of the blurred rows alone is the same of rows in another order. -/
theorem flatMap_perm_of_blur {α : Type} {column : String} {rows others : List Row}
    {make : Row → List α}
    (factors : ∀ row other, blur column row.under = blur column other.under →
      make row = make other)
    (perm : (rows.map fun row => blur column row.under).Perm
      (others.map fun row => blur column row.under)) :
    (rows.flatMap make).Perm (others.flatMap make) := by
  obtain ⟨made, rfl⟩ := (Function.factorsThrough_iff make).mp fun row other => factors row other
  have flattened := perm.flatMap_right made
  rwa [List.flatMap_map, List.flatMap_map] at flattened

namespace Table

variable {table other right result mirrored : Table} {column : String}

/-- Every row makes rows of the result, in place, that have its cells under its names. -/
structure Makes (make : Row → List (String → Cell)) (table result : Table) : Prop where
  names : ∀ name ∈ table.names, name ∈ result.names
  rows : result.rows.map Row.under = table.rows.flatMap make
  keeps : ∀ row ∈ table.rows, ∀ cells ∈ make row, ∀ name ∈ table.names, cells name = row.under name

/-- What holds of the cells of a column holds of them in the result. -/
theorem Makes.forall_under {make : Row → List (String → Cell)} (makes : Makes make table result)
    {name : String} (held : name ∈ table.names) (holds : Cell → Prop)
    (all : ∀ row ∈ table.rows, holds (row.under name)) :
    ∀ row ∈ result.rows, holds (row.under name) := by
  intro row member
  have made : row.under ∈ result.rows.map Row.under := List.mem_map_of_mem member
  rw [makes.rows] at made
  obtain ⟨origin, listed, cells⟩ := List.mem_flatMap.mp made
  rw [makes.keeps origin listed _ cells name held]
  exact all origin listed

theorem makes_join {on names : List String} (joins : table.join right on .left = .ok result)
    (same : ∀ name, name ∈ names ↔ name ∈ table.names) :
    Makes (fun row => (right.partners on (row.keysUnder on)).map (row.filledFrom names)) table
      result := by
  have alike (row : Row) : row.filledFrom names = row.filledFrom table.names := by
    funext partner? name
    rw [Row.filledFrom, Row.filledFrom, if_congr (same name) rfl rfl]
  simp only [alike]
  refine ⟨fun name held => ?_, under_of_join joins, ?_⟩
  · exact (mem_names_of_join joins name).mpr (.inl held)
  · intro row _ cells made name held
    obtain ⟨partner?, -, rfl⟩ := List.mem_map.mp made
    exact if_pos held

theorem makes_addColumn {name : String} {cellOf : Row → Cell}
    (adds : table.addColumn name cellOf = .ok result) :
    Makes (fun row => [Function.update row.under name (cellOf row)]) table result := by
  obtain ⟨names, rows⟩ := under_of_addColumn adds
  have new : name ∉ table.names := new_of_addColumn adds
  refine ⟨fun further held => ?_, ?_, ?_⟩
  · rw [names]
    exact List.mem_append_left _ held
  · rw [rows, List.map_eq_flatMap]
  · intro row _ cells made further held
    have apart : further ≠ name := by
      rintro rfl
      exact new held
    rw [List.mem_singleton.mp made, Function.update_of_ne apart]

/-- The tables have the same names and, in any order, the same rows, but for the cells of one of
their columns, which have the same keys. -/
structure Mirrors (column : String) (table other : Table) : Prop where
  held : column ∈ table.names
  names : ∀ name, name ∈ table.names ↔ name ∈ other.names
  rows : (table.rows.map fun row => blur column row.under).Perm
    (other.rows.map fun row => blur column row.under)

namespace Mirrors

theorem map_perm {α : Type} {read : Row → α} (mirrors : Mirrors column table other)
    (factors : ∀ row other, blur column row.under = blur column other.under →
      read row = read other) : (table.rows.map read).Perm (other.rows.map read) := by
  rw [List.map_eq_flatMap, List.map_eq_flatMap]
  refine flatMap_perm_of_blur (fun row other same => ?_) mirrors.rows
  rw [factors row other same]

theorem made {make : Row → List (String → Cell)} (mirrors : Mirrors column table other)
    (makes : Makes make table result) (again : Makes make other mirrored)
    (names : ∀ name, name ∈ result.names ↔ name ∈ mirrored.names)
    (factors : ∀ row other, blur column row.under = blur column other.under →
      (make row).map (blur column) = (make other).map (blur column)) :
    Mirrors column result mirrored := by
  refine ⟨makes.names column mirrors.held, names, ?_⟩
  have under (rows : List Row) : (rows.map fun row => blur column row.under) =
      (rows.map Row.under).map (blur column) := by
    rw [List.map_map]
    rfl
  rw [under, under, makes.rows, again.rows, List.map_flatMap, List.map_flatMap]
  exact flatMap_perm_of_blur factors mirrors.rows

/-- Where a join of one table succeeds, that of the other does, with mirrored results. -/
theorem join {on : List String} (mirrors : Mirrors column table other)
    (joins : table.join right on .left = .ok result) :
    ∃ mirrored, other.join right on .left = .ok mirrored ∧
      ∃ make, Makes make table result ∧ Mirrors column result mirrored := by
  obtain ⟨_, _, _, leftResolved, rightResolved, -⟩ := resolved_of_join joins
  have held : ∀ name ∈ on, name ∈ other.names := fun name key =>
    (mirrors.names name).mp (Resolves.exists_iff.mp ⟨_, leftResolved⟩ name key)
  obtain ⟨mirrored, again, names⟩ :=
    exists_join_left held (Resolves.exists_iff.mp ⟨_, rightResolved⟩)
  have makes := makes_join joins fun _ => Iff.rfl
  refine ⟨mirrored, again, _, makes, ?_⟩
  refine mirrors.made makes (makes_join again mirrors.names) (fun name => ?_) ?_
  · rw [mem_names_of_join joins, names, mirrors.names]
  · intro row other same
    rw [List.map_map, List.map_map, keysUnder_of_blur same]
    exact List.map_congr_left fun partner? _ => blur_filledFrom same mirrors.held partner?

theorem addColumn {name : String} {cellOf : Row → Cell} (mirrors : Mirrors column table other)
    (factors : ∀ row other, blur column row.under = blur column other.under →
      cellOf row = cellOf other)
    (adds : table.addColumn name cellOf = .ok result) :
    ∃ mirrored, other.addColumn name cellOf = .ok mirrored ∧ Mirrors column result mirrored := by
  have new : name ∉ table.names := new_of_addColumn adds
  obtain ⟨mirrored, again, names⟩ := exists_addColumn (mt (mirrors.names name).mpr new) cellOf
  refine ⟨mirrored, again, ?_⟩
  refine mirrors.made (makes_addColumn adds) (makes_addColumn again) (fun further => ?_) ?_
  · rw [(under_of_addColumn adds).1, names, List.mem_append, List.mem_append, mirrors.names]
  · intro row other same
    have apart : name ≠ column := by
      rintro rfl
      exact new mirrors.held
    rw [List.map_singleton, List.map_singleton, factors row other same, blur_update same apart]

end Mirrors

end Table

end Medals
