import Mathlib.Data.List.Forall2
import Medals.Proofs.Outcome
import Medals.Table.Join

/-!
# Cells by column name

Operators resolve column names to positions once and read cells by position from then on.
`Row.under` and `Row.keysUnder` read cells by name; on rows of the resolved layout the two ways
agree, which `Resolves.map_cellAt` and `Resolves.map_key` state for every list of names.
-/

namespace Medals

/-- Among distinct names each is found at its own position. -/
theorem position?_getElem {names : List String} (distinct : names.Nodup) {index : Nat}
    (inside : index < names.length) : position? names names[index] = some index := by
  refine List.findIdx?_eq_some_iff_getElem.mpr ⟨inside, by simp, fun earlier before => ?_⟩
  have other : names[earlier] ≠ names[index] := fun same =>
    Nat.ne_of_lt before ((List.getElem_inj distinct).mp same)
  simpa using other

namespace Row

/-- The cell under a name; without such a column it is missing. -/
def under (row : Row) (name : String) : Cell :=
  match row.get name with
  | .ok cell => cell
  | .error _ => .missing

/-- The identities of the cells under some names. -/
def keysUnder (row : Row) (names : List String) : List CellKey :=
  names.map fun name => (row.under name).key

theorem under_eq_cellAt {row : Row} {name : String} {index : Nat}
    (found : Medals.position? row.names name = some index) : row.under name = row.cellAt index := by
  simp [under, get, position?, found]

/-- The cells under some names, and nothing else. -/
def narrow (row : Row) (names : List String) : Row :=
  ⟨names, names.map row.under, List.length_map _⟩

/-- Rows are determined by their names and cells. -/
theorem ext_cells {left right : Row} (names : left.names = right.names)
    (cells : left.cells = right.cells) : left = right := by
  cases left
  cases right
  cases names
  cases cells
  rfl

/-- Under distinct names the cells of a row are those under its names. -/
theorem map_under_names {row : Row} (distinct : row.names.Nodup) :
    row.names.map row.under = row.cells := by
  refine List.ext_getElem (by simp [row.width]) fun index here there => ?_
  have inside : index < row.names.length := by simpa using here
  rw [List.getElem_map, under_eq_cellAt (position?_getElem distinct inside), cellAt,
    List.getD_eq_getElem?_getD, List.getElem?_eq_getElem there, Option.getD_some]

end Row

theorem position?_isSome {names : List String} {name : String} :
    (position? names name).isSome ↔ name ∈ names := by
  simp [position?, List.findIdx?_isSome]

theorem exists_position?_iff {names : List String} {name : String} :
    (∃ index, position? names name = some index) ↔ name ∈ names := by
  rw [← position?_isSome, Option.isSome_iff_exists]

/-- A column that is kept keeps its cells. -/
theorem Row.under_narrow {row : Row} {names : List String} {name : String} (kept : name ∈ names) :
    (row.narrow names).under name = row.under name := by
  obtain ⟨index, found⟩ := exists_position?_iff.mpr kept
  obtain ⟨inside, same, -⟩ := List.findIdx?_eq_some_iff_getElem.mp found
  have there : Medals.position? (row.narrow names).names name = some index := found
  rw [under_eq_cellAt there, cellAt, narrow, List.getD_eq_getElem?_getD, List.getElem?_map,
    List.getElem?_eq_getElem inside, eq_of_beq same]
  rfl

/-- The positions are those of the names in a layout. -/
def Resolves (layout names : List String) (positions : List Nat) : Prop :=
  List.Forall₂ (fun name index => position? layout name = some index) names positions

namespace Resolves

variable {layout names : List String} {positions : List Nat}

theorem cons_iff {name : String} : Resolves layout (name :: names) positions ↔
    ∃ index others, position? layout name = some index ∧ Resolves layout names others ∧
      positions = index :: others :=
  List.forall₂_cons_left_iff

theorem map_cellAt (resolved : Resolves layout names positions) {row : Row}
    (aligned : row.names = layout) : positions.map row.cellAt = names.map row.under := by
  induction resolved with
  | nil => rfl
  | cons found _ ih =>
    rw [List.map_cons, List.map_cons, ih, Row.under_eq_cellAt (aligned ▸ found)]

/-- On rows of the layout the identities at the positions are those under the names. -/
theorem map_key (resolved : Resolves layout names positions) {row : Row}
    (aligned : row.names = layout) :
    (positions.map fun index => (row.cellAt index).key) = row.keysUnder names := by
  have cells := congrArg (List.map Cell.key) (resolved.map_cellAt aligned)
  simpa [Row.keysUnder, Function.comp_def] using cells

/-- Every position is that of a name. -/
theorem exists_of_mem (resolved : Resolves layout names positions) {index : Nat}
    (member : index ∈ positions) : ∃ name ∈ names, position? layout name = some index := by
  induction resolved with
  | nil => simp at member
  | cons found _ ih =>
    rcases List.mem_cons.mp member with rfl | later
    · exact ⟨_, List.mem_cons_self, found⟩
    · obtain ⟨name, listed, found⟩ := ih later
      exact ⟨name, List.mem_cons_of_mem _ listed, found⟩

/-- Every name has its position. -/
theorem exists_of_name_mem (resolved : Resolves layout names positions) {name : String}
    (member : name ∈ names) : ∃ index ∈ positions, position? layout name = some index := by
  induction resolved with
  | nil => simp at member
  | cons found _ ih =>
    rcases List.mem_cons.mp member with rfl | later
    · exact ⟨_, List.mem_cons_self, found⟩
    · obtain ⟨index, listed, found⟩ := ih later
      exact ⟨index, List.mem_cons_of_mem _ listed, found⟩

/-- Positions of names lie inside the layout. -/
theorem lt_length (resolved : Resolves layout names positions) :
    ∀ index ∈ positions, index < layout.length := by
  intro index member
  obtain ⟨name, -, found⟩ := resolved.exists_of_mem member
  exact (List.findIdx?_eq_some_iff_getElem.mp found).1

/-- Names can be resolved exactly when the layout has all of them. -/
theorem exists_iff :
    (∃ positions, Resolves layout names positions) ↔ ∀ name ∈ names, name ∈ layout := by
  induction names with
  | nil => simp [Resolves]
  | cons name rest ih =>
    rw [List.forall_mem_cons, ← ih, ← exists_position?_iff]
    constructor
    · rintro ⟨_, resolved⟩
      obtain ⟨index, positions, found, others, rfl⟩ := cons_iff.mp resolved
      exact ⟨⟨index, found⟩, positions, others⟩
    · rintro ⟨⟨index, found⟩, positions, others⟩
      exact ⟨index :: positions, .cons found others⟩

end Resolves

namespace Join

theorem keyPositions_eq (layout on : List String) (side : JoinSide) :
    keyPositions layout side on = on.mapM fun name =>
      (position? layout name).elim (.error (.joinKeyMissing name side)) .ok := by
  induction on with
  | nil => rfl
  | cons name rest ih =>
    rw [keyPositions, List.mapM_cons, ← ih]
    cases position? layout name with
    | none => rfl
    | some index => cases keyPositions layout side rest <;> rfl

/-- The key columns of an operand are resolved when it has all of them. -/
theorem keyPositions_eq_ok_iff {layout on : List String} {side : JoinSide} {positions : List Nat} :
    keyPositions layout side on = .ok positions ↔ Resolves layout on positions := by
  have found (name : String) (index : Nat) :
      (position? layout name).elim (Except.error (Fault.joinKeyMissing name side)) .ok =
        .ok index ↔ position? layout name = some index := by
    cases position? layout name <;> simp
  simp only [keyPositions_eq, mapM_eq_ok_iff, found, Resolves]

end Join

end Medals
