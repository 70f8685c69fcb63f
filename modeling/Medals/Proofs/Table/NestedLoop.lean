import Medals.Proofs.Table.Alignment
import Medals.Proofs.Table.JoinPairs

/-!
# The nested-loop join

`Join.nestedLoop` joins rows by their names alone: it knows no positions, no index and no smaller
operand. `Table.join_eq_ok_iff_nestedLoop` says that a join succeeds exactly when its columns can
be resolved, and that it then has the rows of the nested loop in their order.
-/

namespace Medals

namespace Row

/-- The rows have one key between them under some names, and none of its parts is missing. -/
def Agree (on : List String) (left right : Row) : Prop :=
  left.keysUnder on = right.keysUnder on ∧ CellKey.missing ∉ left.keysUnder on

instance (on : List String) (left right : Row) : Decidable (Agree on left right) :=
  inferInstanceAs (Decidable (_ ∧ _))

end Row

namespace Join

/-- For each left row, each right row that agrees with it, in their orders: the cells of the left
row and those of the right row at the taken positions. A left join keeps a left row that agrees
with none, with missing cells at the taken positions. -/
def nestedLoop (on : List String) (kind : JoinKind) (taken : List Nat) (left right : List Row) :
    List (List Cell) :=
  left.flatMap fun row =>
    match right.filter fun other => row.Agree on other with
    | [] => if kind = .left then [row.cells ++ taken.map fun _ => .missing] else []
    | found => found.map fun other => row.cells ++ taken.map other.cellAt

section Resolved

variable {on : List String} {leftNames rightNames : List String} {leftKeys rightKeys : List Nat}

theorem rowKey?_eq (resolved : Resolves leftNames on leftKeys) {row : Row}
    (aligned : row.names = leftNames) :
    rowKey? leftKeys row =
      if CellKey.missing ∈ row.keysUnder on then none else some (row.keysUnder on) := by
  have someMissing : (row.keysUnder on).any CellKey.isMissing = true ↔
      CellKey.missing ∈ row.keysUnder on := by
    rw [List.any_eq_true]
    constructor
    · rintro ⟨key, member, missing⟩
      cases key <;> simp_all [CellKey.isMissing]
    · exact fun member => ⟨_, member, rfl⟩
  simp only [rowKey?, resolved.map_key aligned, someMissing]

/-- Keys found by position agree exactly when those found by name do. -/
theorem agree_eq (leftResolved : Resolves leftNames on leftKeys)
    (rightResolved : Resolves rightNames on rightKeys) {left right : Row}
    (leftAligned : left.names = leftNames) (rightAligned : right.names = rightNames) :
    agree leftKeys rightKeys left right = decide (left.Agree on right) := by
  rw [agree, rowKey?_eq leftResolved leftAligned, rowKey?_eq rightResolved rightAligned]
  by_cases same : left.keysUnder on = right.keysUnder on
  · by_cases missing : CellKey.missing ∈ right.keysUnder on <;> simp [Row.Agree, same, missing]
  · by_cases one : CellKey.missing ∈ left.keysUnder on <;>
      by_cases other : CellKey.missing ∈ right.keysUnder on <;> simp [Row.Agree, same, one, other]

end Resolved

theorem map_snd_placed (rows : List Row) : (placed rows).map Prod.snd = rows := by
  simp [placed, Function.comp_def, List.zipIdx_map_fst]

theorem mem_of_mem_placed {rows : List Row} {row : Placed} (member : row ∈ placed rows) :
    row.2 ∈ rows := by
  rw [← map_snd_placed rows]
  exact List.mem_map_of_mem member

theorem pairs_eq_pairsByLeft (kind : JoinKind) (leftKeys rightKeys : List Nat)
    (left right : List Row) :
    pairs kind leftKeys rightKeys left right = pairsByLeft kind leftKeys rightKeys left right := by
  unfold pairs
  split
  · next indexLeft =>
    rw [indexLeft.1]
    exact pairsByRight_eq_pairsByLeft leftKeys rightKeys left right
  · rfl

/-- The cells of the pairs are those of the nested loop. -/
theorem map_cellsOfPair_pairs {left right : Table} {on : List String}
    {leftKeys rightKeys : List Nat} (leftResolved : Resolves left.names on leftKeys)
    (rightResolved : Resolves right.names on rightKeys) (kind : JoinKind)
    (retained : List RetainedColumn) :
    (pairs kind leftKeys rightKeys left.rows right.rows).map (cellsOfPair retained) =
      nestedLoop on kind (retained.map RetainedColumn.position) left.rows right.rows := by
  rw [pairs_eq_pairsByLeft, pairsByLeft, List.map_flatMap, nestedLoop]
  conv_rhs => rw [← map_snd_placed left.rows, List.flatMap_map]
  rw [List.flatMap_def, List.flatMap_def]
  refine congrArg List.flatten (List.map_congr_left fun row rowPlaced => ?_)
  have partnersAgree :
      right.rows.filter (fun other => row.2.Agree on other) =
        (partners (buildIndex rightKeys right.rows) leftKeys row.2).map Prod.snd := by
    rw [partners_buildIndex]
    conv_lhs => rw [← map_snd_placed right.rows, List.filter_map]
    refine congrArg (List.map Prod.snd) (List.filter_congr fun other otherPlaced => ?_)
    exact (agree_eq leftResolved rightResolved (left.aligned _ (mem_of_mem_placed rowPlaced))
      (right.aligned _ (mem_of_mem_placed otherPlaced))).symm
  rw [partnersAgree]
  cases partners (buildIndex rightKeys right.rows) leftKeys row.2 with
  | nil => cases kind <;> simp [cellsOfPair, Function.comp_def]
  | cons => simp [cellsOfPair, Function.comp_def]

theorem length_of_mem_nestedLoop {on : List String} {kind : JoinKind} {taken : List Nat}
    {left right : List Row} {cells : List Cell}
    (member : cells ∈ nestedLoop on kind taken left right) :
    ∃ row ∈ left, cells.length = row.cells.length + taken.length := by
  obtain ⟨row, listed, inner⟩ := List.mem_flatMap.mp member
  refine ⟨row, listed, ?_⟩
  split at inner
  · split at inner
    · rw [List.mem_singleton.mp inner]
      simp
    · simp at inner
  · obtain ⟨other, _, rfl⟩ := List.mem_map.mp inner
    simp

end Join

namespace Table

/-- The columns of a join: those of the left table, then the retained ones of the right table. -/
def joinedSchema (left : Table) (retained : List Join.RetainedColumn) : Schema :=
  ⟨left.schema.columns ++ retained.map Join.RetainedColumn.column⟩

/-- Once the columns of a join are resolved, it has the rows of the nested loop. -/
theorem join_of_resolved {left right : Table} {on : List String} {options : JoinOptions}
    {leftKeys rightKeys : List Nat} {retained : List Join.RetainedColumn}
    (leftResolved : Resolves left.names on leftKeys)
    (rightResolved : Resolves right.names on rightKeys)
    (kept : Join.retain options rightKeys left.names right.schema.columns.zipIdx = .ok retained) :
    ∃ joined, left.join right on options = .ok joined ∧
      joined.schema = joinedSchema left retained ∧
      joined.rows.map Row.cells =
        Join.nestedLoop on options.kind (retained.map Join.RetainedColumn.position)
          left.rows right.rows := by
  have cells := Join.map_cellsOfPair_pairs leftResolved rightResolved options.kind retained
  have width : ∀ cells ∈ (Join.pairs options.kind leftKeys rightKeys left.rows right.rows).map
      (Join.cellsOfPair retained), cells.length = (joinedSchema left retained).names.length := by
    rw [cells]
    intro cells member
    obtain ⟨row, listed, length⟩ := Join.length_of_mem_nestedLoop member
    rw [length, row.width, left.aligned row listed]
    simp [joinedSchema, Schema.names]
  obtain ⟨rows, built, same, aligned⟩ := rowsOfCells_ok width
  refine ⟨⟨joinedSchema left retained, rows, aligned⟩, ?_, rfl, same.trans cells⟩
  rw [joinedSchema] at built aligned
  simp only [join, Join.keyPositions_eq_ok_iff.mpr leftResolved,
    Join.keyPositions_eq_ok_iff.mpr rightResolved, kept, built, ofRows_ok aligned, bind,
    Except.bind, joinedSchema]

/-- A join that succeeds has resolved its columns. -/
theorem resolved_of_join {left right joined : Table} {on : List String} {options : JoinOptions}
    (success : left.join right on options = .ok joined) :
    ∃ leftKeys rightKeys retained, Resolves left.names on leftKeys ∧
      Resolves right.names on rightKeys ∧
      Join.retain options rightKeys left.names right.schema.columns.zipIdx = .ok retained := by
  unfold join at success
  cases leftFound : Join.keyPositions left.names .left on with
  | error fault => simp [leftFound, bind, Except.bind] at success
  | ok leftKeys =>
    cases rightFound : Join.keyPositions right.names .right on with
    | error fault => simp [leftFound, rightFound, bind, Except.bind] at success
    | ok rightKeys =>
      cases kept : Join.retain options rightKeys left.names right.schema.columns.zipIdx with
      | error fault => simp [leftFound, rightFound, kept, bind, Except.bind] at success
      | ok retained =>
        exact ⟨leftKeys, rightKeys, retained, Join.keyPositions_eq_ok_iff.mp leftFound,
          Join.keyPositions_eq_ok_iff.mp rightFound, kept⟩

/-- A column at the position of a key is a key column. -/
theorem name_mem_of_key {table : Table} {on : List String} {keys : List Nat}
    (resolved : Resolves table.names on keys) {entry : Column × Nat}
    (member : entry ∈ table.schema.columns.zipIdx) (key : entry.2 ∈ keys) : entry.1.name ∈ on := by
  obtain ⟨name, keyed, found⟩ := resolved.exists_of_mem key
  obtain ⟨inside, same, -⟩ := List.findIdx?_eq_some_iff_getElem.mp found
  obtain ⟨_, column⟩ := List.getElem?_eq_some_iff.mp (List.mem_zipIdx_iff_getElem?.mp member)
  have named : entry.1.name = name := by simpa [← column, Table.names, Schema.names] using same
  exact named ▸ keyed

/-- A join succeeds exactly when both tables have the key columns and the names of the retained
right columns are new. It then has the rows of the nested loop in their order, and an inner join
has the same pairs whichever table is indexed. -/
theorem join_eq_ok_iff_nestedLoop (left right joined : Table) (on : List String)
    (options : JoinOptions) :
    (left.join right on options = .ok joined ↔
      (∀ name ∈ on, name ∈ left.names) ∧
      ∃ rightKeys retained, Resolves right.names on rightKeys ∧
        Join.retain options rightKeys left.names right.schema.columns.zipIdx = .ok retained ∧
        joined.schema = joinedSchema left retained ∧
        joined.rows.map Row.cells =
          Join.nestedLoop on options.kind (retained.map Join.RetainedColumn.position)
            left.rows right.rows) ∧
    ∀ leftKeys rightKeys,
      Join.pairsByRight leftKeys rightKeys left.rows right.rows =
        Join.pairsByLeft .inner leftKeys rightKeys left.rows right.rows := by
  constructor
  · constructor
    · intro success
      obtain ⟨leftKeys, rightKeys, retained, leftResolved, rightResolved, kept⟩ :=
        resolved_of_join success
      obtain ⟨table, joins, schema, rows⟩ := join_of_resolved leftResolved rightResolved kept
      rw [success, Except.ok.injEq] at joins
      subst joins
      exact ⟨Resolves.exists_iff.mp ⟨leftKeys, leftResolved⟩, rightKeys, retained, rightResolved,
        kept, schema, rows⟩
    · rintro ⟨present, rightKeys, retained, rightResolved, kept, schema, rows⟩
      obtain ⟨leftKeys, leftResolved⟩ := Resolves.exists_iff.mpr present
      obtain ⟨table, joins, tableSchema, tableRows⟩ :=
        join_of_resolved leftResolved rightResolved kept
      rw [joins, Table.ext_cells (tableSchema.trans schema.symm) (tableRows.trans rows.symm)]
  · intro leftKeys rightKeys
    exact Join.pairsByRight_eq_pairsByLeft leftKeys rightKeys left.rows right.rows

end Table

end Medals
