import Medals.Proofs.Cell.Identity
import Medals.Proofs.Stream.Grouping
import Medals.Proofs.Table.Conditions
import Medals.Proofs.Table.JoinNames

/-!
# Tables with the same keys

Two tables may spell their cells differently and still identify them alike (`Table.SameKeys`). What
looks at keys only cannot tell such tables apart: equality filters pass the same rows
(`Filter.eval_sameKeys`), joins find the same pairs (`Join.samePair_pairs`), and rows fall into the
same groups (`Table.SameKeys.groupBy`). The results of filters and joins have the same keys again.
-/

namespace Medals

namespace Cell

/-- Only missing cells have the identity of one. -/
theorem key_eq_missing_iff {cell : Cell} : cell.key = .missing ↔ cell = .missing := by
  constructor
  · intro same
    cases cell with
    | missing => rfl
    | integer value => simp [key] at same
    | number value =>
      rcases value.key_eq_integer_or_number with ⟨whole, found⟩ | found <;>
        simp [key, found] at same
    | text raw => exact absurd same (key_text_ne_missing raw)
  · rintro rfl
    rfl

theorem isMissing_eq_of_key {cell other : Cell} (same : cell.key = other.key) :
    cell.isMissing = other.isMissing := by
  rw [Bool.eq_iff_iff, isMissing_iff, isMissing_iff, ← key_eq_missing_iff, same,
    key_eq_missing_iff]

end Cell

/-- The rows are of one layout, and place for place their cells have the same keys. -/
structure Row.SameKeys (row other : Row) : Prop where
  names : row.names = other.names
  keys : row.cells.map Cell.key = other.cells.map Cell.key

/-- The tables are of one layout, and row for row they have the same keys. -/
structure Table.SameKeys (table other : Table) : Prop where
  names : table.names = other.names
  rows : List.Forall₂ Row.SameKeys table.rows other.rows

namespace Row.SameKeys

variable {row other : Row}

theorem cellAt (same : row.SameKeys other) (index : Nat) :
    (row.cellAt index).key = (other.cellAt index).key := by
  have keyAt (cells : List Cell) : (cells.getD index .missing).key =
      (cells.map Cell.key).getD index .missing := by
    rw [List.getD_eq_getElem?_getD, List.getD_eq_getElem?_getD, List.getElem?_map]
    cases cells[index]? <;> rfl
  rw [Row.cellAt, Row.cellAt, keyAt, keyAt, same.keys]

/-- A column is found in both rows or in neither. -/
theorem get (same : row.SameKeys other) (name : String) :
    Concur (fun cell further => cell.key = further.key) (row.get name) (other.get name) := by
  rw [Row.get, Row.get, Row.position?, Row.position?, same.names]
  cases Medals.position? other.names name with
  | none => exact .fault _
  | some index => exact .value (same.cellAt index)

theorem under (same : row.SameKeys other) (name : String) :
    (row.under name).key = (other.under name).key := by
  have found := same.get name
  rw [Row.under, Row.under]
  generalize row.get name = one, other.get name = another at found
  cases found with
  | value alike => exact alike
  | fault => rfl

theorem keysUnder (same : row.SameKeys other) (on : List String) :
    row.keysUnder on = other.keysUnder on :=
  List.map_congr_left fun name _ => same.under name

end Row.SameKeys

section Filters

/-- The conditions ask for cells of one key under one column. -/
inductive Condition.SameKey : Condition → Condition → Prop where
  | equals (column : String) {cell other : Cell} (same : cell.key = other.key) :
      SameKey (.equals column cell) (.equals column other)

/-- The filters consist of equalities that ask, one after the other, for the same keys. -/
def Filter.SameKeys (filter other : Filter) : Prop :=
  List.Forall₂ Condition.SameKey filter.conditions other.conditions

variable {row other : Row} {filter further : Filter}

theorem Condition.SameKey.column {condition other : Condition} (same : SameKey condition other) :
    condition.column = other.column := by
  cases same
  rfl

theorem Condition.SameKey.test {condition other : Condition} (same : SameKey condition other) :
    condition.test = other.test := by
  cases same with
  | equals column same => rw [Condition.test, Condition.test, same]

theorem Condition.SameKey.accepts {condition other : Condition} (same : SameKey condition other)
    {cell further : Cell} (key : cell.key = further.key) :
    condition.test.accepts cell = other.test.accepts further := by
  rw [← same.test]
  cases same with
  | equals column => simp only [Condition.test, Test.accepts, Cell.isMissing_eq_of_key key, key]

namespace Filter

theorem evalConditions_sameKeys {conditions asked : List Condition} (rows : row.SameKeys other)
    (same : List.Forall₂ Condition.SameKey conditions asked) :
    evalConditions row conditions = evalConditions other asked := by
  induction same with
  | nil => rfl
  | @cons condition twin _ _ first _ ih =>
    rw [evalConditions, evalConditions, first.column, ih]
    have found := rows.get twin.column
    generalize row.get twin.column = one, other.get twin.column = another at found
    cases found with
    | value alike => simp only [first.accepts alike]
    | fault => rfl

/-- Rows of the same keys pass the same equalities, and are refused for the same columns. -/
theorem eval_sameKeys (rows : row.SameKeys other) (filters : filter.SameKeys further) :
    filter.eval row = further.eval other :=
  evalConditions_sameKeys rows filters

theorem bindConditions_sameKeys {conditions asked : List Condition} (layout : List String)
    (same : List.Forall₂ Condition.SameKey conditions asked) :
    bindConditions layout conditions = bindConditions layout asked := by
  induction same with
  | nil => rfl
  | cons first _ ih => rw [bindConditions, bindConditions, first.column, first.test, ih]

theorem bind_sameKeys (filters : filter.SameKeys further) (layout : List String) :
    filter.bind layout = further.bind layout :=
  congrArg (Except.map BoundFilter.mk) (bindConditions_sameKeys layout filters)

end Filter

end Filters

namespace Join

/-- The rows have one place, and the same keys. -/
def SamePlaced (row other : Placed) : Prop :=
  row.1 = other.1 ∧ row.2.SameKeys other.2

/-- The pairs have the same places, and their rows the same keys. -/
def SamePair (pair other : Pair) : Prop :=
  SamePlaced pair.1 other.1 ∧ Option.Rel SamePlaced pair.2 other.2

variable {row other partner further : Row} {left right others mirrored : List Row}
  {leftKeys rightKeys : List Nat}

theorem rowKey?_sameKeys (same : row.SameKeys other) (positions : List Nat) :
    rowKey? positions row = rowKey? positions other := by
  have keys : (positions.map fun index => (row.cellAt index).key) =
      positions.map fun index => (other.cellAt index).key :=
    List.map_congr_left fun index _ => same.cellAt index
  rw [rowKey?, rowKey?, keys]

theorem agree_sameKeys (same : row.SameKeys other) (partners : partner.SameKeys further) :
    agree leftKeys rightKeys row partner = agree leftKeys rightKeys other further := by
  rw [agree, agree, rowKey?_sameKeys same, rowKey?_sameKeys partners]

theorem samePlaced_placed (same : List.Forall₂ Row.SameKeys left others) :
    List.Forall₂ SamePlaced (placed left) (placed others) := by
  have fromPlace (start : Nat) : List.Forall₂ SamePlaced
      ((left.zipIdx start).map fun entry => (entry.2, entry.1))
      ((others.zipIdx start).map fun entry => (entry.2, entry.1)) := by
    induction same generalizing start with
    | nil => exact .nil
    | cons first _ ih => exact .cons ⟨rfl, first⟩ (ih (start + 1))
  exact fromPlace 0

theorem samePlaced_partners (same : row.SameKeys other)
    (rights : List.Forall₂ Row.SameKeys right mirrored) :
    List.Forall₂ SamePlaced (partners (buildIndex rightKeys right) leftKeys row)
      (partners (buildIndex rightKeys mirrored) leftKeys other) := by
  rw [partners_buildIndex, partners_buildIndex]
  exact List.rel_filter (fun _ _ alike => Bool.eq_iff_iff.mp (agree_sameKeys same alike.2))
    (samePlaced_placed rights)

/-- Rows of the same keys are paired alike. -/
theorem samePair_pairs (kind : JoinKind) (lefts : List.Forall₂ Row.SameKeys left others)
    (rights : List.Forall₂ Row.SameKeys right mirrored) :
    List.Forall₂ SamePair (pairs kind leftKeys rightKeys left right)
      (pairs kind leftKeys rightKeys others mirrored) := by
  rw [pairs_eq_pairsByLeft, pairs_eq_pairsByLeft]
  refine List.rel_flatMap (samePlaced_placed lefts) fun row other alike => ?_
  have found := @samePlaced_partners _ _ _ _ leftKeys rightKeys alike.2 rights
  generalize partners _ _ row.2 = one, partners _ _ other.2 = another at found
  cases found with
  | nil =>
    dsimp only
    split
    · exact .cons ⟨alike, .none⟩ .nil
    · exact .nil
  | cons first rest => exact List.rel_map (fun _ _ same => ⟨alike, .some same⟩) (.cons first rest)

/-- Pairs have the places of those that are paired alike. -/
theorem map_places_pairs (kind : JoinKind) (lefts : List.Forall₂ Row.SameKeys left others)
    (rights : List.Forall₂ Row.SameKeys right mirrored) :
    (pairs kind leftKeys rightKeys left right).map places =
      (pairs kind leftKeys rightKeys others mirrored).map places := by
  rw [← List.forall₂_eq_eq_eq]
  refine List.rel_map (fun pair other same => ?_) (samePair_pairs kind lefts rights)
  obtain ⟨row, partner?⟩ := pair
  obtain ⟨twin, partner'?⟩ := other
  obtain ⟨⟨place, _⟩, partners⟩ := same
  refine Prod.ext place ?_
  cases partners with
  | some same => exact congrArg some same.1
  | none => rfl

/-- The columns come from one position and have one name. -/
def SameColumn (column other : RetainedColumn) : Prop :=
  column.position = other.position ∧ column.column.name = other.column.name

theorem keys_cellsOfPair {pair other : Pair} {retained kept : List RetainedColumn}
    (same : SamePair pair other) (columns : List.Forall₂ SameColumn retained kept) :
    (cellsOfPair retained pair).map Cell.key = (cellsOfPair kept other).map Cell.key := by
  obtain ⟨row, partner?⟩ := pair
  obtain ⟨twin, partner'?⟩ := other
  obtain ⟨⟨_, lefts⟩, partners⟩ := same
  rw [cellsOfPair, cellsOfPair, List.map_append, List.map_append, lefts.keys, List.map_map,
    List.map_map]
  refine congrArg _ (List.forall₂_eq_eq_eq.le _ _ ?_)
  refine List.rel_map (fun column twin alike => ?_) columns
  rw [Function.comp_apply, Function.comp_apply]
  cases partners with
  | some same =>
    dsimp only
    rw [alike.1, same.2.cellAt]
  | none => rfl

/-- The kinds of right columns do not decide which of them are retained. -/
theorem retain_concur (options : JoinOptions) (keys : List Nat) {names : List String}
    {columns others : List (Column × Nat)}
    (same : List.Forall₂ (fun one other => one.1.name = other.1.name ∧ one.2 = other.2) columns
      others) :
    Concur (List.Forall₂ SameColumn) (retain options keys names columns)
      (retain options keys names others) := by
  induction same generalizing names with
  | nil => exact .value .nil
  | @cons one other rest others first _ ih =>
    obtain ⟨⟨column, index⟩, ⟨twin, _⟩⟩ := one, other
    obtain ⟨named, rfl⟩ : column.name = twin.name ∧ index = _ := first
    rw [retain, retain, named]
    split
    · exact ih
    · dsimp only
      split
      · exact ih
      · next name _ =>
        split
        · exact .fault _
        · have later := @ih (names ++ [name])
          generalize retain options keys _ rest = kept, retain options keys _ others = further
            at later
          cases later with
          | value alike => exact .value (.cons ⟨rfl, rfl⟩ alike)
          | fault => exact .fault _

end Join

/-- Names are resolved to one list of positions. -/
theorem Resolves.unique {layout names : List String} {positions others : List Nat}
    (resolved : Resolves layout names positions) (again : Resolves layout names others) :
    positions = others :=
  Except.ok.inj ((mapM_requirePosition_eq_ok_iff.mpr resolved).symm.trans
    (mapM_requirePosition_eq_ok_iff.mpr again))

/-- A join is refused for the key columns of its operands and then as the choice of its columns. -/
theorem Table.fault?_join (left right : Table) (on : List String) (options : JoinOptions) :
    fault? (left.join right on options) =
      match Join.keyPositions left.names .left on, Join.keyPositions right.names .right on with
      | .error fault, _ => some fault
      | .ok _, .error fault => some fault
      | .ok _, .ok keys =>
        fault? (Join.retain options keys left.names right.schema.columns.zipIdx) := by
  cases leftFound : Join.keyPositions left.names .left on with
  | error fault =>
    rw [Table.join, leftFound]
    rfl
  | ok leftKeys =>
    cases rightFound : Join.keyPositions right.names .right on with
    | error fault =>
      rw [Table.join, leftFound, rightFound]
      rfl
    | ok rightKeys =>
      rw [← fault?_map _ Table.names, map_names_join options
        (Join.keyPositions_eq_ok_iff.mp leftFound) (Join.keyPositions_eq_ok_iff.mp rightFound),
        fault?_map, Join.namesOf, fault?_map]

theorem Table.names_of_joinedSchema {left joined : Table} {retained : List Join.RetainedColumn}
    (schema : joined.schema = left.joinedSchema retained) :
    joined.names = left.names ++ retained.map fun kept => kept.column.name := by
  simp [names, schema, joinedSchema, Schema.names, Function.comp_def]

namespace Table.SameKeys

variable {table other right further : Table}

/-- Equalities leave tables of the same keys. -/
theorem filter {filter asked : Filter} (same : table.SameKeys other)
    (filters : filter.SameKeys asked) :
    Concur Table.SameKeys (table.filter filter) (other.filter asked) := by
  rw [Table.filter, Table.filter, Filter.bind_sameKeys filters, ← same.names]
  cases binds : asked.bind table.names with
  | error fault => exact .fault fault
  | ok bound =>
    have listed := (List.forall₂_and_left _ _).mpr
      ⟨fun row (member : row ∈ table.rows) => member, same.rows⟩
    refine .value ⟨same.names, ?_⟩
    refine (List.rel_filter (fun row twin alike => ?_) listed).imp fun _ _ alike => alike.2
    have laid : row.names = table.names := table.aligned row alike.1
    have first : filter.eval row = .ok (bound.accepts row) :=
      Filter.eval_eq_accepts (by rw [laid, Filter.bind_sameKeys filters, binds])
    have second : asked.eval twin = .ok (bound.accepts twin) :=
      Filter.eval_eq_accepts (by rw [← alike.2.names, laid, binds])
    have both := Filter.eval_sameKeys alike.2 filters
    rw [first, second, Except.ok.injEq] at both
    exact Bool.eq_iff_iff.mp both

/-- The columns of tables of one layout, with their positions. -/
theorem columns (same : table.SameKeys other) :
    List.Forall₂ (fun one other => one.1.name = other.1.name ∧ one.2 = other.2)
      table.schema.columns.zipIdx other.schema.columns.zipIdx := by
  have names : table.schema.columns.map Column.name = other.schema.columns.map Column.name :=
    same.names
  rw [← List.forall₂_eq_eq_eq, List.forall₂_map_left_iff, List.forall₂_map_right_iff] at names
  generalize table.schema.columns = columns, other.schema.columns = others, 0 = start at names ⊢
  induction names generalizing start with
  | nil => exact .nil
  | cons named _ ih => exact .cons ⟨named, rfl⟩ (ih (start + 1))

theorem of_cells (names : table.names = other.names)
    (cells : List.Forall₂ (fun one other => one.map Cell.key = other.map Cell.key)
      (table.rows.map Row.cells) (other.rows.map Row.cells)) : table.SameKeys other := by
  rw [List.forall₂_map_left_iff, List.forall₂_map_right_iff] at cells
  refine ⟨names, List.forall₂_iff_get.mpr ⟨cells.length_eq, fun index here there => ⟨?_, ?_⟩⟩⟩
  · rw [table.aligned _ (List.get_mem ..), other.aligned _ (List.get_mem ..)]
    exact names
  · exact cells.get here there

/-- Tables of the same keys are joined alike, and the results have the same keys again. -/
theorem join (same : table.SameKeys other) (rights : right.SameKeys further) (on : List String)
    (options : JoinOptions) :
    Concur Table.SameKeys (table.join right on options) (other.join further on options) := by
  have retained (keys : List Nat) :=
    @Join.retain_concur options keys table.names _ _ rights.columns
  refine .of_fault? ?_ fun joined twin joins again => ?_
  · rw [fault?_join, fault?_join, ← same.names, ← rights.names]
    cases Join.keyPositions table.names .left on with
    | error => rfl
    | ok =>
      cases Join.keyPositions right.names .right on with
      | error => rfl
      | ok keys => exact (retained keys).fault?_eq
  · obtain ⟨leftKeys, rightKeys, columns, leftResolved, rightResolved, kept⟩ :=
      resolved_of_join joins
    have leftAgain : Resolves other.names on leftKeys := same.names ▸ leftResolved
    have rightAgain : Resolves further.names on rightKeys := rights.names ▸ rightResolved
    obtain ⟨_, _, twins, _, rightOther, keptAgain⟩ := resolved_of_join again
    obtain rfl := rightAgain.unique rightOther
    have alike := (retained rightKeys).related_of_ok kept (same.names ▸ keptAgain)
    obtain ⟨_, found, schema, rows⟩ := join_of_resolved leftResolved rightResolved kept
    obtain rfl := Except.ok.inj (joins.symm.trans found)
    obtain ⟨_, foundAgain, schemaAgain, rowsAgain⟩ :=
      join_of_resolved leftAgain rightAgain keptAgain
    obtain rfl := Except.ok.inj (again.symm.trans foundAgain)
    refine of_cells ?_ ?_
    · have given : columns.map (fun kept => kept.column.name) =
          twins.map fun kept => kept.column.name := by
        rw [← List.forall₂_eq_eq_eq]
        exact List.rel_map (fun _ _ named => named.2) alike
      rw [names_of_joinedSchema schema, names_of_joinedSchema schemaAgain, same.names, given]
    · rw [rows, rowsAgain, ← Join.map_cellsOfPair_pairs leftResolved rightResolved,
        ← Join.map_cellsOfPair_pairs leftAgain rightAgain]
      refine List.rel_map ?_ (Join.samePair_pairs options.kind same.rows rights.rows)
      exact fun _ _ pair => Join.keys_cellsOfPair pair alike

end Table.SameKeys

section Groups

/-- The function counts rows or cells and looks at no value. -/
def AggregateFunction.Counts (function : AggregateFunction) : Prop :=
  function = .count ∨ function = .countPresent

/-- The rows stand for one group in the results of a grouping: their cells in the key columns have
the same keys, and they count the same. -/
structure Grouping.SameGroup (grouping : Grouping) (row other : Row) : Prop where
  keys : (row.cells.take grouping.keys.length).map Cell.key =
    (other.cells.take grouping.keys.length).map Cell.key
  counts : ∀ place aggregation, grouping.aggregations[place]? = some aggregation →
    aggregation.function.Counts →
      row.cellAt (grouping.keys.length + place) = other.cellAt (grouping.keys.length + place)

namespace Grouping

variable {grouping : Grouping} {rows others : List Row} {row other : Row}

theorem keyOf_sameKeys (same : row.SameKeys other) : grouping.keyOf row = grouping.keyOf other :=
  same.keysUnder grouping.keys

/-- Every row has the key of its counterpart. -/
theorem map_keyOf_sameKeys (same : List.Forall₂ Row.SameKeys rows others) :
    rows.map grouping.keyOf = others.map grouping.keyOf := by
  rw [← List.forall₂_eq_eq_eq]
  exact List.rel_map (fun _ _ alike => keyOf_sameKeys alike) same

theorem groupOf_sameKeys (same : List.Forall₂ Row.SameKeys rows others) (key : List CellKey) :
    List.Forall₂ Row.SameKeys (grouping.groupOf rows key) (grouping.groupOf others key) := by
  refine List.rel_filter (fun row other alike => ?_) same
  dsimp only
  rw [keyOf_sameKeys alike]

theorem key_cellOf_sameKeys (same : row.SameKeys other) (aggregation : Aggregation) :
    (aggregation.cellOf row).key = (aggregation.cellOf other).key := by
  rw [Aggregation.cellOf, Aggregation.cellOf]
  cases aggregation.column with
  | none => rfl
  | some name => exact same.under name

/-- Counts do not depend on more of the cells than whether they are missing. -/
theorem count_sameKeys {aggregation : Aggregation} {cell further : Cell}
    (same : List.Forall₂ Row.SameKeys rows others) (counts : aggregation.function.Counts)
    (first : aggregation.function.Summarises (rows.map aggregation.cellOf) cell)
    (second : aggregation.function.Summarises (others.map aggregation.cellOf) further) :
    cell = further := by
  rcases counts with function | function <;>
    rw [function, AggregateFunction.Summarises] at first second <;> rw [first, second]
  · rw [List.length_map, List.length_map, same.length_eq]
  · have present : List.Forall₂ Row.SameKeys
        (rows.filter fun row => !(aggregation.cellOf row).isMissing)
        (others.filter fun row => !(aggregation.cellOf row).isMissing) := by
      refine List.rel_filter (fun row other alike => ?_) same
      dsimp only
      rw [Cell.isMissing_eq_of_key (key_cellOf_sameKeys alike aggregation)]
    rw [List.countP_map, List.countP_map, List.countP_eq_length_filter,
      List.countP_eq_length_filter]
    exact congrArg (fun size => Cell.integer (Int64.ofNat size)) present.length_eq

/-- Groups of rows with the same keys are represented alike. -/
theorem sameGroup_of_stands (same : List.Forall₂ Row.SameKeys rows others)
    (stands : grouping.Stands rows row) (again : grouping.Stands others other) :
    grouping.SameGroup row other := by
  refine ⟨?_, fun place aggregation listed counts =>
    count_sameKeys same counts (stands.summarises listed) (again.summarises listed)⟩
  obtain ⟨first, rest, summaries, rfl, cells, -⟩ := stands
  obtain ⟨twin, further, summaries', rfl, cells', -⟩ := again
  obtain ⟨alike, -⟩ := List.forall₂_cons.mp same
  rw [cells, cells', List.take_left' (List.length_map _), List.take_left' (List.length_map _),
    List.map_map, List.map_map]
  exact alike.keysUnder grouping.keys

end Grouping

/-- Tables of the same keys have the same groups. -/
theorem Table.SameKeys.groupBy {table other : Table} (same : table.SameKeys other)
    (grouping : Grouping) :
    Concur (fun result further => result.names = further.names ∧
        List.Forall₂ grouping.SameGroup result.rows further.rows)
      (table.groupBy grouping) (other.groupBy grouping) := by
  cases accepted : Groups.bind grouping table.names with
  | error fault =>
    have refused : table.groupBy grouping = .error fault := by
      rw [Table.groupBy, accepted]
      rfl
    have again : other.groupBy grouping = .error fault := by
      rw [Table.groupBy, ← same.names, accepted]
      rfl
    rw [refused, again]
    exact .fault fault
  | ok groups =>
    obtain ⟨result, made, names, stand⟩ := Groups.foldl_add_table accepted table.aligned
    obtain ⟨further, madeAgain, namesAgain, standAgain⟩ :=
      Groups.foldl_add_table (same.names ▸ accepted) other.aligned
    rw [groupBy_of_bind accepted, made, groupBy_of_bind (same.names ▸ accepted), madeAgain]
    refine .value ⟨names.trans namesAgain.symm, ?_⟩
    have keys : grouping.keysOf table.rows = grouping.keysOf other.rows := by
      rw [Grouping.keysOf, Grouping.keysOf, distinctKeys, distinctKeys,
        Grouping.map_keyOf_sameKeys same.rows]
    rw [keys] at stand
    refine List.forall₂_iff_get.mpr
      ⟨stand.length_eq.symm.trans standAgain.length_eq, fun place here there => ?_⟩
    have listed := stand.length_eq.symm ▸ here
    exact Grouping.sameGroup_of_stands (Grouping.groupOf_sameKeys same.rows _)
      (stand.get listed here) (standAgain.get listed there)

end Groups

end Medals
