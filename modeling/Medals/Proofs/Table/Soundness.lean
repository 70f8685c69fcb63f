import Medals.Proofs.Table.Binding
import Medals.Proofs.Table.NestedLoop
import Medals.Table.Group
import Medals.Table.Sort

/-!
# Sound schemas

A schema is sound for a row if every column allows the row's cell: a missing cell needs a nullable
column, and any other cell has a kind that the kind of the column covers. Inferred columns are those
that are observed while their cells are read (`Column.infer_eq_observed`), inferred schemas are sound
for the rows that they are inferred from (`sound_infer`), and the operations on tables, which put
schemas and rows together separately, keep them sound. What a column allows does not depend on its
name.
-/

namespace Medals

namespace CellKind

theorem widen_self (kind : CellKind) : kind.widen kind = kind := by
  cases kind <;> rfl

/-- Widening covers what it widens, on either side. -/
theorem widen_widen_right (known kind : CellKind) :
    kind.widen (known.widen kind) = known.widen kind := by
  cases known <;> cases kind <;> rfl

theorem widen_widen_of_covers {kind known : CellKind} (covers : kind.widen known = known)
    (other : CellKind) : kind.widen (known.widen other) = known.widen other := by
  cases kind <;> cases known <;> cases other <;> first | rfl | exact nomatch covers

end CellKind

namespace Column

/-- The column may hold the cell. -/
def Allows (column : Column) (cell : Cell) : Prop :=
  match cell.kind? with
  | none => column.nullable = true
  | some kind => kind.widen column.kind = column.kind

/-- A column that may hold missing cells and covers the same kind allows what another allows. -/
theorem Allows.loosen {column looser : Column} {cell : Cell} (allows : column.Allows cell)
    (kind : looser.kind = column.kind) (nullable : column.nullable = true → looser.nullable = true) :
    looser.Allows cell := by
  unfold Allows at *
  cases found : cell.kind? with
  | none =>
    simp only [found] at allows
    exact nullable allows
  | some known => simpa only [found, kind] using allows

end Column

namespace Observation

variable {observation : Observation} {cell : Cell}

/-- The cell has been taken into account. -/
def Covers (observation : Observation) (cell : Cell) : Prop :=
  match cell.kind? with
  | .none => observation.missing = true
  | .some kind => ∃ known, observation.kind? = some known ∧ kind.widen known = known

theorem covers_observe (observation : Observation) (cell : Cell) :
    (observation.observe cell).Covers cell := by
  unfold Covers observe
  cases cell.kind? with
  | none => rfl
  | some kind =>
    refine ⟨_, rfl, ?_⟩
    cases observation.kind? with
    | none => exact kind.widen_self
    | some known => exact CellKind.widen_widen_right known kind

/-- Further cells do not undo what has been taken into account. -/
theorem Covers.observe (covers : observation.Covers cell) (other : Cell) :
    (observation.observe other).Covers cell := by
  unfold Covers at *
  cases missing : other.kind? with
  | none =>
    rw [Observation.observe, missing]
    cases kind : cell.kind? with
    | none => rfl
    | some => simpa [kind] using covers
  | some more =>
    rw [Observation.observe, missing]
    cases kind : cell.kind? with
    | none => simpa [kind] using covers
    | some own =>
      obtain ⟨known, seen, covered⟩ := by simpa only [kind] using covers
      exact ⟨known.widen more, by simp only [seen], CellKind.widen_widen_of_covers covered more⟩

theorem covers_foldl (cells : List Cell) (observation : Observation) :
    (∀ cell, observation.Covers cell → (cells.foldl observe observation).Covers cell) ∧
      ∀ cell ∈ cells, (cells.foldl observe observation).Covers cell := by
  induction cells generalizing observation with
  | nil => exact ⟨fun cell covers => covers, by simp⟩
  | cons first rest ih =>
    obtain ⟨kept, covered⟩ := ih (observation.observe first)
    refine ⟨fun cell covers => kept cell (covers.observe first), fun cell member => ?_⟩
    rcases List.mem_cons.mp member with rfl | later
    · exact kept cell (covers_observe observation cell)
    · exact covered cell later

/-- The observed column allows every cell that was observed. -/
theorem Covers.allows (covers : observation.Covers cell) (name : String) :
    (observation.column name).Allows cell := by
  unfold Covers at covers
  unfold Column.Allows column
  cases kind : cell.kind? with
  | none => simp [show observation.missing = true by simpa [kind] using covers]
  | some own =>
    obtain ⟨known, seen, covered⟩ := by simpa only [kind] using covers
    simpa [seen] using covered

end Observation

/-- What cells have told agrees with what has been seen of them. No kind is known before there was a
cell. -/
structure Inference.Agrees (inference : Inference) (observation : Observation) : Prop where
  kind? : inference.kind? = observation.kind?
  nullable : inference.nullable = observation.missing
  unseen : inference.seen = false → inference.kind? = .none

namespace Inference.Agrees

variable {inference : Inference} {observation : Observation}

theorem none : Agrees .none .none :=
  ⟨rfl, rfl, fun _ => rfl⟩

theorem add (agrees : inference.Agrees observation) (cell : Cell) :
    (inference.add cell).Agrees (observation.observe cell) := by
  unfold Inference.add Observation.observe
  cases cell.kind? with
  | none => exact ⟨agrees.kind?, rfl, nofun⟩
  | some kind =>
    refine ⟨?_, agrees.nullable, nofun⟩
    simp only [agrees.kind?]
    cases observation.kind? <;> rfl

theorem foldl (agrees : inference.Agrees observation) (cells : List Cell) :
    (cells.foldl Inference.add inference).Agrees (cells.foldl Observation.observe observation) := by
  induction cells generalizing inference observation with
  | nil => exact agrees
  | cons cell rest ih => exact ih (agrees.add cell)

end Inference.Agrees

namespace Column

/-- The column that is inferred from cells is the one that is observed while they are read. Without
any cell there is no kind either, so that to have seen none does not matter. -/
theorem infer_eq_observed (name : String) (cells : List Cell) :
    infer name cells = (cells.foldl Observation.observe Observation.none).column name := by
  have agrees := Inference.Agrees.none.foldl cells
  unfold infer Observation.column
  simp only [← agrees.kind?, ← agrees.nullable]
  cases seen : (cells.foldl Inference.add Inference.none).seen with
  | true => simp
  | false => simp [agrees.unseen seen]

theorem allows_infer (name : String) {cells : List Cell} {cell : Cell} (member : cell ∈ cells) :
    (infer name cells).Allows cell := by
  rw [infer_eq_observed]
  exact ((Observation.covers_foldl cells Observation.none).2 cell member).allows name

end Column

namespace Schema

/-- There is a column for every cell of the row, and it allows the cell. -/
def Sound (schema : Schema) (row : Row) : Prop :=
  List.Forall₂ Column.Allows schema.columns row.cells

theorem Sound.allows {schema : Schema} {row : Row} (sound : schema.Sound row) {index : Nat}
    (inside : index < schema.columns.length) :
    (schema.columns.getD index default).Allows (row.cellAt index) := by
  have wide : index < row.cells.length := sound.length_eq ▸ inside
  have allowed := sound.get inside wide
  simpa [Row.cellAt, inside, wide] using allowed

/-- An inferred schema is sound for the rows that it is inferred from. -/
theorem sound_infer {names : List String} {rows : List Row} {row : Row}
    (aligned : row.names = names) (member : row ∈ rows) : (infer names rows).Sound row := by
  have width : row.cells.length = names.length := by rw [row.width, aligned]
  refine List.forall₂_iff_get.mpr ⟨by simp [infer, width], fun index here there => ?_⟩
  simp only [infer, List.get_eq_getElem, List.getElem_map, List.getElem_zipIdx, Nat.zero_add]
  refine Column.allows_infer _ (List.mem_filterMap.mpr ⟨row, member, ?_⟩)
  exact List.getElem?_eq_getElem there

end Schema

namespace Join

/-- A retained column is a right column under a name of its own, which a left join makes nullable. -/
theorem exists_of_mem_retain {options : JoinOptions} {keys : List Nat} {names : List String}
    {columns : List (Column × Nat)} {retained : List RetainedColumn}
    (kept : retain options keys names columns = .ok retained) :
    ∀ one ∈ retained, ∃ column, (column, one.position) ∈ columns ∧
      one.column.kind = column.kind ∧
      one.column.nullable = (column.nullable || options.kind == .left) := by
  induction columns generalizing names retained with
  | nil =>
    obtain rfl : [] = retained := by simpa [retain] using kept
    simp
  | cons entry rest ih =>
    obtain ⟨column, index⟩ := entry
    have later : ∀ {names others}, retain options keys names rest = .ok others →
        ∀ one ∈ others, ∃ source, (source, one.position) ∈ (column, index) :: rest ∧
          one.column.kind = source.kind ∧
          one.column.nullable = (source.nullable || options.kind == .left) := by
      intro names others goesOn one member
      obtain ⟨source, listed, same⟩ := ih goesOn one member
      exact ⟨source, List.mem_cons_of_mem _ listed, same⟩
    rw [retain] at kept
    split at kept
    · exact later kept
    · dsimp only at kept
      split at kept
      · exact later kept
      · next name _ =>
        split at kept
        · simp at kept
        · cases others : retain options keys (names ++ [name]) rest with
          | error => simp [others] at kept
          | ok further =>
            simp only [others, Except.ok.injEq] at kept
            subst kept
            refine List.forall_mem_cons.mpr ⟨?_, later others⟩
            exact ⟨column, List.mem_cons_self, rfl, rfl⟩

end Join

namespace Table

variable {table result : Table}

/-- Names, rows and schema are in step, and the schema is sound for every row. -/
structure WellFormed (table : Table) : Prop where
  names : table.names = table.schema.columns.map Column.name
  aligned : ∀ row ∈ table.rows, row.names = table.names
  width : ∀ row ∈ table.rows, row.cells.length = table.schema.columns.length
  sound : ∀ row ∈ table.rows, table.schema.Sound row

/-- Soundness is all that a table does not carry with it. -/
theorem wellFormed_of_sound (sound : ∀ row ∈ table.rows, table.schema.Sound row) :
    table.WellFormed where
  names := rfl
  aligned := table.aligned
  width row member := (sound row member).length_eq.symm
  sound := sound

/-- A table of rows of another under the same schema. -/
theorem WellFormed.restrict (whole : table.WellFormed) (schema : result.schema = table.schema)
    (rows : ∀ row ∈ result.rows, row ∈ table.rows) : result.WellFormed :=
  wellFormed_of_sound fun row member => schema ▸ whole.sound row (rows row member)

theorem ofRows_eq_ok_iff {schema : Schema} {rows : List Row} :
    ofRows schema rows = .ok result ↔ result.schema = schema ∧ result.rows = rows := by
  constructor
  · intro built
    unfold ofRows at built
    split at built
    · simp at built
    · obtain rfl := Except.ok.inj built
      exact ⟨rfl, rfl⟩
  · rintro ⟨rfl, rfl⟩
    exact ofRows_ok result.aligned

theorem wellFormed_of_inferred {names : List String} {rows : List Row}
    (built : inferred names rows = .ok result) : result.WellFormed := by
  obtain ⟨schema, rfl⟩ := ofRows_eq_ok_iff.mp built
  refine wellFormed_of_sound fun row member => ?_
  rw [schema]
  refine Schema.sound_infer ((result.aligned row member).trans ?_) member
  rw [schema, Schema.names_infer]

theorem wellFormed_empty (names : List String) : (empty names).WellFormed :=
  wellFormed_of_sound (by simp [empty])

theorem WellFormed.addColumn (whole : table.WellFormed) {name : String} {cellOf : Row → Cell}
    (added : table.addColumn name cellOf = .ok result) : result.WellFormed := by
  unfold Table.addColumn at added
  split at added
  · simp at added
  · obtain rfl := Except.ok.inj added
    refine wellFormed_of_sound fun row member => ?_
    obtain ⟨source, listed, rfl⟩ := List.mem_map.mp member
    have new := Column.allows_infer name (List.mem_map_of_mem (f := cellOf) listed)
    exact List.rel_append (whole.sound source listed) (.cons new .nil)

theorem WellFormed.project (whole : table.WellFormed) {columns : List String}
    (projected : table.project columns = .ok result) : result.WellFormed := by
  obtain ⟨projection, bound, rfl⟩ := map_eq_ok_iff.mp projected
  refine wellFormed_of_sound fun row member => ?_
  obtain ⟨source, listed, rfl⟩ := List.mem_map.mp member
  have inside : ∀ index ∈ projection.positions, index < table.schema.columns.length := by
    simpa [Table.names, Schema.names] using (Projection.resolves_of_bind bound).2.lt_length
  refine List.forall₂_iff_get.mpr ⟨?_, fun place here there => ?_⟩
  · simp [projectedSchema, Projection.apply, Row.pick, projection.width]
  · simp only [projectedSchema, Projection.apply, Row.pick, List.get_eq_getElem,
      List.getElem_map, List.getElem_zip]
    exact ((whole.sound source listed).allows (inside _ (List.getElem_mem _))).loosen rfl id

theorem WellFormed.filter (whole : table.WellFormed) {filter : Filter}
    (filtered : table.filter filter = .ok result) : result.WellFormed := by
  obtain ⟨tests, -, rfl⟩ := map_eq_ok_iff.mp filtered
  exact whole.restrict rfl fun row member => (List.mem_filter.mp member).1

theorem WellFormed.sortByKeys (whole : table.WellFormed) {keys : List SortKey}
    (sorted : table.sortByKeys keys = .ok result) : result.WellFormed := by
  obtain ⟨bound, -, rfl⟩ := map_eq_ok_iff.mp sorted
  exact whole.restrict rfl fun row member => List.mem_mergeSort.mp member

theorem WellFormed.slice (whole : table.WellFormed) (offset length : Nat) :
    (table.slice offset length).WellFormed :=
  whole.restrict rfl fun _ member => List.mem_of_mem_drop (List.mem_of_mem_take member)

theorem WellFormed.join {left right : Table} (leftWhole : left.WellFormed)
    (rightWhole : right.WellFormed) {on : List String} {options : JoinOptions}
    (joined : left.join right on options = .ok result) : result.WellFormed := by
  obtain ⟨leftKeys, rightKeys, retained, leftResolved, rightResolved, kept⟩ :=
    resolved_of_join joined
  obtain ⟨table, joins, schema, rows⟩ := join_of_resolved leftResolved rightResolved kept
  obtain rfl : table = result := Except.ok.inj (joins.symm.trans joined)
  refine wellFormed_of_sound fun row member => ?_
  have looped := rows ▸ List.mem_map_of_mem (f := Row.cells) member
  obtain ⟨leftRow, listed, paired⟩ := List.mem_flatMap.mp looped
  have source : ∀ one ∈ retained, ∃ column, right.schema.columns[one.position]? = some column ∧
      one.column.kind = column.kind ∧
      one.column.nullable = (column.nullable || options.kind == .left) := by
    intro one member
    obtain ⟨column, placed, same⟩ := Join.exists_of_mem_retain kept one member
    exact ⟨column, List.mem_zipIdx_iff_getElem?.mp placed, same⟩
  -- Retained columns allow the cells that a left join makes up, and those of every right row.
  have absent : options.kind = .left → ∀ one ∈ retained, one.column.Allows .missing := by
    intro keeps one member
    obtain ⟨column, -, -, nullable⟩ := source one member
    simpa [Column.Allows, Cell.kind?, keeps] using nullable
  have present : ∀ other ∈ right.rows, ∀ one ∈ retained,
      one.column.Allows (other.cellAt one.position) := by
    intro other member one kept
    obtain ⟨column, found, kind, nullable⟩ := source one kept
    obtain ⟨inside, rfl⟩ := List.getElem?_eq_some_iff.mp found
    have allowed := (rightWhole.sound other member).allows inside
    rw [List.getD_eq_getElem?_getD, found, Option.getD_some] at allowed
    exact allowed.loosen kind fun may => by simp [nullable, may]
  have beside : ∀ cellOf : Nat → Cell, (∀ one ∈ retained, one.column.Allows (cellOf one.position)) →
      List.Forall₂ Column.Allows (joinedSchema left retained).columns
        (leftRow.cells ++ (retained.map Join.RetainedColumn.position).map cellOf) := by
    intro cellOf allowed
    refine List.rel_append (leftWhole.sound leftRow listed) ?_
    rw [List.map_map, List.forall₂_map_left_iff, List.forall₂_map_right_iff, List.forall₂_same]
    exact allowed
  rw [Schema.Sound, schema]
  split at paired
  · split at paired
    · next keeps =>
      rw [List.mem_singleton.mp paired]
      exact beside _ (absent keeps)
    · simp at paired
  · obtain ⟨other, agrees, same⟩ := List.mem_map.mp paired
    rw [← same]
    exact beside _ (present other (List.mem_filter.mp agrees).1)

/-- A grouped table is inferred from its rows. -/
theorem wellFormed_of_groups {groups : Groups} (made : groups.table = .ok result) :
    result.WellFormed := by
  unfold Groups.table at made
  cases built : rowsOfCells groups.names (groups.found.toList.map fun group =>
      group.keyCells ++ group.accumulators.map Accumulator.result) with
  | error => simp [built, Bind.bind, Except.bind] at made
  | ok rows => exact wellFormed_of_inferred (by simpa [built, Bind.bind, Except.bind] using made)

theorem wellFormed_of_groupBy {grouping : Grouping} (grouped : table.groupBy grouping = .ok result) :
    result.WellFormed := by
  unfold Table.groupBy at grouped
  cases bound : Groups.bind grouping table.names with
  | error => simp [bound, Bind.bind, Except.bind] at grouped
  | ok groups => exact wellFormed_of_groups (by simpa [bound, Bind.bind, Except.bind] using grouped)

end Table

end Medals
