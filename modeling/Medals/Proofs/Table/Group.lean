import Medals.Proofs.Table.Alignment
import Medals.Proofs.Table.Binding
import Medals.Proofs.Table.Partition
import Medals.Proofs.Table.Summary

/-!
# The groups of rows

`Grouping.Stands` says what a row of a result has to hold for the rows of its group. The groups
found in one pass are tied to the rows seen so far by `Groups.Tracks`, which every further row
preserves (`Groups.Tracks.add`). From it `Groups.foldl_add_table` concludes that the groups of all
rows make a table with one such row for each key.
-/

namespace Medals

/-- The cell of a row that an aggregation summarises; a count of rows has none. -/
def Aggregation.cellOf (aggregation : Aggregation) (row : Row) : Cell :=
  match aggregation.column with
  | some name => row.under name
  | none => .missing

namespace Grouping

/-- The key of a row. -/
def keyOf (grouping : Grouping) (row : Row) : List CellKey :=
  row.keysUnder grouping.keys

/-- The keys of rows, in the order of their first rows. -/
def keysOf (grouping : Grouping) (rows : List Row) : List (List CellKey) :=
  distinctKeys grouping.keyOf rows

/-- The rows of a key, in their order. -/
def groupOf (grouping : Grouping) (rows : List Row) (key : List CellKey) : List Row :=
  ofKey grouping.keyOf rows key

/-- A row stands for a group: it has the cells of the group's first row in the key columns, and a
summary of the group for each aggregation. -/
def Stands (grouping : Grouping) (group : List Row) (row : Row) : Prop :=
  ∃ first rest summaries, group = first :: rest ∧
    row.cells = grouping.keys.map first.under ++ summaries ∧
    List.Forall₂ (fun aggregation summary =>
      aggregation.function.Summarises (group.map aggregation.cellOf) summary)
      grouping.aggregations summaries

/-- The cells for a group in the result: those of its first row in the key columns, then what the
accumulators make of its rows. -/
def cellsFor (grouping : Grouping) (group : List Row) : List Cell :=
  grouping.keys.map (group.headD default).under ++ grouping.aggregations.map fun aggregation =>
    ((group.map aggregation.cellOf).foldl Accumulator.update
      (.start aggregation.function)).result

theorem length_cellsFor (grouping : Grouping) (group : List Row) :
    (grouping.cellsFor group).length = grouping.outputNames.length := by
  simp [cellsFor, outputNames]

/-- The cells for a group stand for it. -/
theorem stands_of_cells {grouping : Grouping} {group : List Row} {row : Row} (nonempty : group ≠ [])
    (cells : row.cells = grouping.cellsFor group) : grouping.Stands group row := by
  obtain ⟨first, rest, rfl⟩ := List.exists_cons_of_ne_nil nonempty
  refine ⟨first, rest, _, rfl, cells, ?_⟩
  rw [List.forall₂_map_right_iff, List.forall₂_same]
  exact fun aggregation _ => Accumulator.summarises _ _

/-- The summary of an aggregation is at its place behind the key columns. -/
theorem Stands.summarises {grouping : Grouping} {group : List Row} {row : Row}
    (stands : grouping.Stands group row) {place : Nat} {aggregation : Aggregation}
    (listed : grouping.aggregations[place]? = some aggregation) :
    aggregation.function.Summarises (group.map aggregation.cellOf)
      (row.cellAt (grouping.keys.length + place)) := by
  obtain ⟨first, rest, summaries, _, cells, all⟩ := stands
  obtain ⟨inside, rfl⟩ := List.getElem?_eq_some_iff.mp listed
  have insideSummaries : place < summaries.length := all.length_eq ▸ inside
  rw [Row.cellAt, cells, List.getD_eq_getElem?_getD, List.getElem?_append_right (by simp),
    List.length_map, Nat.add_sub_cancel_left, List.getElem?_eq_getElem insideSummaries]
  exact all.get inside insideSummaries

/-- The counts of all groups add up to the number of rows. -/
theorem sum_counts {grouping : Grouping} {rows results : List Row}
    (stand : List.Forall₂ (fun key row => grouping.Stands (grouping.groupOf rows key) row)
      (grouping.keysOf rows) results)
    (countable : rows.length < 2 ^ 63) {place : Nat} {aggregation : Aggregation}
    (listed : grouping.aggregations[place]? = some aggregation)
    (counts : aggregation.function = .count) :
    (results.map fun row => (row.cellAt (grouping.keys.length + place)).whole?.getD 0).sum =
      rows.length := by
  have sizes : (results.map fun row => (row.cellAt (grouping.keys.length + place)).whole?.getD 0) =
      (grouping.keysOf rows).map fun key => ((grouping.groupOf rows key).length : Int) := by
    rw [← List.forall₂_eq_eq_eq, List.forall₂_map_left_iff, List.forall₂_map_right_iff]
    refine List.Forall₂.flip (stand.imp fun key row stands => ?_)
    have summary := stands.summarises listed
    rw [counts, AggregateFunction.Summarises, List.length_map] at summary
    have small : (grouping.groupOf rows key).length < 2 ^ 63 :=
      Nat.lt_of_le_of_lt (List.length_filter_le _ rows) countable
    rw [flip, summary, Cell.whole?, Option.getD_some, Int64.toInt_ofNat_of_lt small]
  have total := map_list_sum (Nat.castAddMonoidHom Int)
    ((grouping.keysOf rows).map fun key => (grouping.groupOf rows key).length)
  rw [List.map_map] at total
  rw [sizes, ← @sum_length_ofKey _ _ _ grouping.keyOf rows]
  exact total.symm

end Grouping

namespace Groups

section Binding

variable {layout : List String}

/-- The cell at a position; without a position it is missing. -/
def cellAt? (position : Option Nat) (row : Row) : Cell :=
  match position with
  | some index => row.cellAt index
  | none => .missing

/-- What an aggregation is resolved to: its function, and a position that has its cells. -/
def Computes (layout : List String) (aggregation : Aggregation)
    (bound : AggregateFunction × Option Nat) : Prop :=
  bound.1 = aggregation.function ∧
    ∀ row : Row, row.names = layout → cellAt? bound.2 row = aggregation.cellOf row

theorem bindKeys_eq (layout names : List String) :
    bindKeys layout names = names.mapM (requirePosition layout) := by
  induction names with
  | nil => rfl
  | cons name rest ih =>
    rw [bindKeys, List.mapM_cons, ← ih]
    cases requirePosition layout name with
    | error => rfl
    | ok index => cases bindKeys layout rest <;> rfl

theorem bindAggregations_eq (layout : List String) (aggregations : List Aggregation) :
    bindAggregations layout aggregations = aggregations.mapM (bindAggregation layout) := by
  induction aggregations with
  | nil => rfl
  | cons aggregation rest ih =>
    rw [bindAggregations, List.mapM_cons, ← ih]
    cases bindAggregation layout aggregation with
    | error => rfl
    | ok one => cases bindAggregations layout rest <;> rfl

theorem computes_of_bindAggregation {aggregation : Aggregation}
    {bound : AggregateFunction × Option Nat}
    (binds : bindAggregation layout aggregation = .ok bound) :
    Computes layout aggregation bound := by
  unfold bindAggregation at binds
  cases column : aggregation.column with
  | some name =>
    rw [column] at binds
    obtain ⟨index, found, rfl⟩ := map_eq_ok_iff.mp binds
    refine ⟨rfl, fun row aligned => ?_⟩
    have position := requirePosition_eq_ok_iff.mp found
    rw [← aligned] at position
    rw [Aggregation.cellOf, column]
    exact (Row.under_eq_cellAt position).symm
  | none =>
    cases function : aggregation.function <;> simp [column, function] at binds
    subst binds
    exact ⟨function.symm, fun row _ => by rw [Aggregation.cellOf, column]; rfl⟩

/-- A grouping that is accepted has its columns resolved, and no group yet. -/
theorem resolved_of_bind {grouping : Grouping} {groups : Groups}
    (accepted : bind grouping layout = .ok groups) :
    Resolves layout grouping.keys groups.keyPositions ∧
      List.Forall₂ (fun aggregation bound => bindAggregation layout aggregation = .ok bound)
        grouping.aggregations groups.aggregations ∧
      groups.names = grouping.outputNames ∧ groups.index = ∅ ∧ groups.found = #[] := by
  obtain ⟨positions, keys, accepted⟩ := bind_eq_ok_iff.mp accepted
  obtain ⟨bound, summaries, accepted⟩ := bind_eq_ok_iff.mp accepted
  obtain ⟨_, distinct, accepted⟩ := bind_eq_ok_iff.mp accepted
  obtain rfl := Except.ok.inj accepted
  rw [bindKeys_eq, mapM_requirePosition_eq_ok_iff] at keys
  rw [bindAggregations_eq, mapM_eq_ok_iff] at summaries
  exact ⟨keys, summaries, rfl, rfl, rfl⟩

/-- The columns of an accepted grouping are at the positions it is resolved to. -/
theorem of_bind {grouping : Grouping} {groups : Groups}
    (accepted : bind grouping layout = .ok groups) :
    Resolves layout grouping.keys groups.keyPositions ∧
      List.Forall₂ (Computes layout) grouping.aggregations groups.aggregations ∧
      groups.names = grouping.outputNames ∧ groups.index = ∅ ∧ groups.found = #[] := by
  obtain ⟨keys, summaries, rest⟩ := resolved_of_bind accepted
  exact ⟨keys, summaries.imp fun _ _ => computes_of_bindAggregation, rest⟩

end Binding

/-- The group of some rows, taken into account one by one. -/
def gathered (groups : Groups) (rows : List Row) : Group :=
  rows.foldl (fun group row => groups.count row group) (groups.newGroup (rows.headD default))

theorem gathered_singleton (groups : Groups) (row : Row) :
    groups.gathered [row] = groups.count row (groups.newGroup row) := rfl

theorem gathered_concat (groups : Groups) {rows : List Row} (found : rows ≠ []) (last : Row) :
    groups.gathered (rows ++ [last]) = groups.count last (groups.gathered rows) := by
  obtain ⟨first, rest, rfl⟩ := List.exists_cons_of_ne_nil found
  simp [gathered, List.foldl_append]

/-- An index and the groups found, tied to the rows seen so far: the keys of those rows are indexed
by their places, and the group at each place has gathered the rows of its key. -/
structure Tracks (start : Groups) (index : Std.HashMap (List CellKey) Nat) (found : Array Group)
    (rows : List Row) : Prop where
  places : ∀ (key : List CellKey) (place : Nat),
    index[key]? = some place ↔ (distinctKeys start.keyOf rows)[place]? = some key
  gathered : found.toList =
    (distinctKeys start.keyOf rows).map fun key => start.gathered (ofKey start.keyOf rows key)

theorem tracks_nil (start : Groups) : Tracks start ∅ #[] [] where
  places := by simp [distinctKeys]
  gathered := by simp [distinctKeys]

section Step

variable {start : Groups} {index : Std.HashMap (List CellKey) Nat} {found : Array Group}
  {rows : List Row}

/-- A row of a key that is not indexed founds a group of its own. -/
theorem Tracks.add_new (tracks : start.Tracks index found rows) {row : Row}
    (new : index[start.keyOf row]? = none) :
    start.Tracks (index.insert (start.keyOf row) found.size)
      (found.push (start.count row (start.newGroup row))) (rows ++ [row]) := by
  have unknown : start.keyOf row ∉ distinctKeys start.keyOf rows := by
    intro listed
    obtain ⟨place, here⟩ := List.getElem?_of_mem listed
    simp [(tracks.places _ place).mpr here] at new
  have size : found.size = (distinctKeys start.keyOf rows).length := by
    rw [← Array.length_toList, tracks.gathered, List.length_map]
  constructor
  · intro key place
    rw [distinctKeys_concat_of_not_mem unknown, Std.HashMap.getElem?_insert, size,
      getElem?_concat_eq_some, ← tracks.places]
    by_cases same : start.keyOf row = key
    · simp [← same, new]
    · simp [same]
  · rw [Array.toList_push, tracks.gathered, distinctKeys_concat_of_not_mem unknown, List.map_append,
      List.map_singleton, ofKey_concat, ofKey_eq_nil unknown, if_pos rfl, List.nil_append,
      gathered_singleton]
    refine congrArg (· ++ _) (List.map_congr_left fun key listed => ?_)
    rw [ofKey_concat, if_neg fun same : start.keyOf row = key => unknown (same ▸ listed),
      List.append_nil]

/-- A row of a key that is indexed is counted by the group at its place. -/
theorem Tracks.add_known (tracks : start.Tracks index found rows) {row : Row} {place : Nat}
    (known : index[start.keyOf row]? = some place) :
    start.Tracks index (found.modify place (start.count row)) (rows ++ [row]) := by
  have here := (tracks.places _ place).mp known
  have listed := List.mem_of_getElem? here
  constructor
  · intro key other
    rw [distinctKeys_concat_of_mem listed]
    exact tracks.places key other
  · rw [Array.toList_modify, tracks.gathered, distinctKeys_concat_of_mem listed]
    apply List.ext_getElem?
    intro other
    rw [List.getElem?_modify, List.getElem?_map, List.getElem?_map]
    cases key : (distinctKeys start.keyOf rows)[other]? with
    | none => rfl
    | some otherKey =>
      have same : place = other ↔ start.keyOf row = otherKey := by
        constructor
        · intro same
          rw [same, key] at here
          exact (Option.some.inj here).symm
        · intro same
          rw [← same, ← tracks.places, known] at key
          exact Option.some.inj key
      simp only [Option.map_some, ofKey_concat, same]
      by_cases equal : start.keyOf row = otherKey
      · subst equal
        simp [gathered_concat start (ofKey_ne_nil listed)]
      · simp [equal]

/-- Taking a row into account keeps index and groups tied to the rows. -/
theorem Tracks.add (tracks : start.Tracks index found rows) (row : Row) :
    ∃ index' found', ({ start with index, found } : Groups).add row =
        { start with index := index', found := found' } ∧
      start.Tracks index' found' (rows ++ [row]) := by
  have keyed : ({ start with index, found } : Groups).keyOf row = start.keyOf row := rfl
  unfold Groups.add
  cases known : index[start.keyOf row]? with
  | none =>
    refine ⟨_, _, ?_, tracks.add_new known⟩
    simp only [keyed, known]
    rfl
  | some place =>
    refine ⟨_, _, ?_, tracks.add_known known⟩
    simp only [keyed, known]
    rfl

end Step

/-- The groups of all rows, from a grouping that has seen none. -/
theorem tracks_foldl {start : Groups} (fresh : start.index = ∅) (noGroups : start.found = #[])
    (rows : List Row) :
    ∃ index found, rows.foldl Groups.add start = { start with index, found } ∧
      start.Tracks index found rows := by
  induction rows using List.reverseRecOn with
  | nil => exact ⟨∅, #[], by rw [List.foldl_nil, ← fresh, ← noGroups], tracks_nil start⟩
  | append_singleton rows row ih =>
    obtain ⟨index, found, folded, tracks⟩ := ih
    obtain ⟨index', found', added, tracks'⟩ := tracks.add row
    exact ⟨index', found', by rw [List.foldl_concat, folded, added], tracks'⟩

section Result

variable {groups : Groups}

/-- Each accumulator of a group takes the cells of its own aggregation. -/
theorem foldl_count (groups : Groups) (rows : List Row) (keyCells : List Cell)
    (states : AggregateFunction × Option Nat → Accumulator) :
    rows.foldl (fun group row => groups.count row group)
        ⟨keyCells, groups.aggregations.map states⟩ =
      ⟨keyCells, groups.aggregations.map fun bound =>
        (rows.map (cellAt? bound.2)).foldl Accumulator.update (states bound)⟩ := by
  induction rows generalizing states with
  | nil => rfl
  | cons row rest ih =>
    have counted : groups.count row ⟨keyCells, groups.aggregations.map states⟩ =
        ⟨keyCells, groups.aggregations.map fun bound =>
          (states bound).update (cellAt? bound.2 row)⟩ := by
      simp only [count, List.zipWith_map_left, List.zipWith_self]
      rfl
    rw [List.foldl_cons, counted, ih]
    rfl

theorem gathered_cons (groups : Groups) (first : Row) (rest : List Row) :
    groups.gathered (first :: rest) =
      ⟨groups.keyPositions.map first.cellAt, groups.aggregations.map fun bound =>
        ((first :: rest).map (cellAt? bound.2)).foldl Accumulator.update (.start bound.1)⟩ :=
  foldl_count groups (first :: rest) _ _

/-- The cells of a group in the result. -/
def cellsOf (group : Group) : List Cell :=
  group.keyCells ++ group.accumulators.map Accumulator.result

/-- A group that has gathered rows has the cells of their summary. -/
theorem cellsOf_gathered {layout : List String} {grouping : Grouping}
    (keys : Resolves layout grouping.keys groups.keyPositions)
    (summaries : List.Forall₂ (Computes layout) grouping.aggregations groups.aggregations)
    {rows : List Row} (nonempty : rows ≠ []) (aligned : ∀ row ∈ rows, row.names = layout) :
    cellsOf (groups.gathered rows) = grouping.cellsFor rows := by
  obtain ⟨first, rest, rfl⟩ := List.exists_cons_of_ne_nil nonempty
  rw [gathered_cons, cellsOf, keys.map_cellAt (aligned first List.mem_cons_self),
    Grouping.cellsFor, List.headD_cons, List.map_map]
  refine congrArg _ (Eq.symm ?_)
  rw [← List.forall₂_eq_eq_eq, List.forall₂_map_left_iff, List.forall₂_map_right_iff]
  refine summaries.imp fun aggregation bound computes => ?_
  have sameCells : (first :: rest).map (cellAt? bound.2) =
      (first :: rest).map aggregation.cellOf :=
    List.map_congr_left fun other member => computes.2 other (aligned other member)
  rw [Function.comp_apply, sameCells, computes.1]

/-- Groups of the width of the result's layout make a table. -/
theorem table_ok {groups : Groups}
    (width : ∀ group ∈ groups.found.toList, (cellsOf group).length = groups.names.length) :
    ∃ result, groups.table = .ok result ∧ result.names = groups.names ∧
      result.rows.map Row.cells = groups.found.toList.map cellsOf := by
  obtain ⟨rows, built, cells, aligned⟩ := Table.rowsOfCells_ok
    (show ∀ cells ∈ groups.found.toList.map cellsOf, cells.length = groups.names.length by
      simpa using width)
  obtain ⟨result, inferred, names, same⟩ := Table.inferred_ok aligned
  refine ⟨result, ?_, names, by rw [same, cells]⟩
  unfold table
  exact (congrArg (Except.bind · _) built).trans inferred

/-- All rows in one pass make a table with the summaries of each key, in the order of the keys. -/
theorem cells_of_foldl_add {layout : List String} {grouping : Grouping}
    (accepted : bind grouping layout = .ok groups) {rows : List Row}
    (aligned : ∀ row ∈ rows, row.names = layout) :
    ∃ result, (rows.foldl add groups).table = .ok result ∧
      result.names = grouping.outputNames ∧
      result.rows.map Row.cells =
        (grouping.keysOf rows).map fun key => grouping.cellsFor (grouping.groupOf rows key) := by
  obtain ⟨keys, summaries, names, fresh, noGroups⟩ := of_bind accepted
  obtain ⟨index, found, folded, tracks⟩ := tracks_foldl fresh noGroups rows
  have sameKey : ∀ row ∈ rows, groups.keyOf row = grouping.keyOf row := fun row member =>
    keys.map_key (aligned row member)
  have groupsFound : found.toList.map cellsOf =
      (grouping.keysOf rows).map fun key => grouping.cellsFor (grouping.groupOf rows key) := by
    rw [tracks.gathered, distinctKeys_congr sameKey, List.map_map]
    refine List.map_congr_left fun key listed => ?_
    rw [Function.comp_apply, ofKey_congr sameKey]
    exact cellsOf_gathered keys summaries (ofKey_ne_nil listed)
      fun member grouped => aligned member (mem_ofKey.mp grouped).1
  obtain ⟨result, made, resultNames, cells⟩ :=
    @table_ok { groups with index, found } fun group member => by
      have listed := List.mem_map_of_mem (f := cellsOf) member
      rw [show ({ groups with index, found } : Groups).found.toList.map cellsOf = _
        from groupsFound] at listed
      obtain ⟨key, -, same⟩ := List.mem_map.mp listed
      rw [← same, grouping.length_cellsFor]
      exact congrArg List.length names.symm
  exact ⟨result, by rw [folded, made], resultNames.trans names, cells.trans groupsFound⟩

/-- All rows in one pass make a table with a row for each key that stands for its rows. -/
theorem foldl_add_table {layout : List String} {grouping : Grouping}
    (accepted : bind grouping layout = .ok groups) {rows : List Row}
    (aligned : ∀ row ∈ rows, row.names = layout) :
    ∃ result, (rows.foldl add groups).table = .ok result ∧
      result.names = grouping.outputNames ∧
      List.Forall₂ (fun key row => grouping.Stands (grouping.groupOf rows key) row)
        (grouping.keysOf rows) result.rows := by
  obtain ⟨result, made, names, cells⟩ := cells_of_foldl_add accepted aligned
  refine ⟨result, made, names, ?_⟩
  rw [← List.forall₂_eq_eq_eq, List.forall₂_map_left_iff, List.forall₂_map_right_iff] at cells
  have listedCells := (List.forall₂_and_left _ _).mpr
    ⟨fun key (listed : key ∈ grouping.keysOf rows) => listed, List.Forall₂.flip cells⟩
  apply listedCells.imp
  rintro key row ⟨listed, same⟩
  exact Grouping.stands_of_cells (ofKey_ne_nil listed) same

end Result

end Groups

end Medals
