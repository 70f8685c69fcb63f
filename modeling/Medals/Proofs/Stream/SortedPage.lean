import Medals.Proofs.Stream.Page
import Medals.Proofs.Stream.Ranking
import Medals.Proofs.Table.Columns

/-!
# Sorted pages of a stream and of its table

`Table.sortedPage` sorts all rows that pass a filter and cuts a window out of them.
`Pipeline.sortedPage` never holds more rows than the window reaches, and makes the same page
(`Pipeline.sortedPage_eq_sortedPage_of_table`) as long as the integers in the key column are ones
on which the order of cells is transitive.
-/

namespace Medals

/-- Compare rows by the column of a key, missing cells last. -/
def SortKey.order (key : SortKey) (left right : Row) : Ordering :=
  Cell.orderMissingLast key.descending (left.under key.column) (right.under key.column)

/-- Nothing but missing cells comes after a missing cell. -/
theorem SortKey.isMissing_of_order {key : SortKey} {left right : Row}
    (ordered : key.order left right ≠ .gt) (missing : (left.under key.column).isMissing = true) :
    (right.under key.column).isMissing = true := by
  unfold order Cell.orderMissingLast at ordered
  cases present : (right.under key.column).isMissing with
  | true => rfl
  | false => simp [missing, present] at ordered

/-- Rows with admitted key cells have one stable order. -/
theorem SortKey.eq_of_stable {key : SortKey} (total : Cell.TotalOrder key.descending)
    {listed ranked others : List Row}
    (admitted : ∀ row ∈ listed, total.admits (row.under key.column))
    (stable : StableOrder key.order listed ranked) (also : StableOrder key.order listed others) :
    ranked = others := by
  have := transCmp_on total.compare fun row : Row => row.under key.column
  exact stable.unique_of_agrees (fun first one second other =>
    total.agrees (admitted first one) (admitted second other)) also

section KeyColumn

variable {rows : List Row} {key : SortKey} {index : Nat}

/-- On admitted key cells rows are in order when their key cells are. -/
theorem Row.inOrder_eq {descending : Bool} (total : Cell.TotalOrder descending) {left right : Row}
    (leftAdmitted : total.admits (left.cellAt index))
    (rightAdmitted : total.admits (right.cellAt index)) :
    Row.inOrder [(index, descending)] left right =
      (total.compare (left.cellAt index) (right.cellAt index) != .gt) := by
  rw [Row.inOrder, Row.compareBy, Row.compareBy, Ordering.then_eq,
    total.agrees leftAdmitted rightAdmitted]

/-- Sorting rows by a column of admitted cells is stable. -/
theorem Row.stableOrder_mergeSort (total : Cell.TotalOrder key.descending)
    (admitted : ∀ row ∈ rows, total.admits (row.under key.column))
    (column : ∀ row ∈ rows, row.under key.column = row.cellAt index) :
    StableOrder key.order rows (rows.mergeSort (Row.inOrder [(index, key.descending)])) := by
  have := transCmp_on total.compare fun row : Row => row.under key.column
  refine StableOrder.mergeSort_of_agrees
    (fun left one right other => total.agrees (admitted left one) (admitted right other))
    fun left one right other => ?_
  rw [Row.inOrder, Row.compareBy, Row.compareBy, Ordering.then_eq, SortKey.order,
    column left one, column right other]

/-- A ranking of rows is the beginning of the sorted rows. -/
theorem Ranking.best_foldl_push {descending : Bool} (total : Cell.TotalOrder descending)
    (capacity : Nat) (shown : Row → Row)
    (admitted : ∀ row ∈ rows, total.admits (row.cellAt index)) :
    (rows.foldl (fun ranking row => ranking.push (row.cellAt index) (shown row))
        (Ranking.start capacity descending)).best =
      ((rows.mergeSort (Row.inOrder [(index, descending)])).take capacity).map shown := by
  have entriesAdmitted : ∀ entry ∈ rows.map fun row => Ranked.mk (row.cellAt index) (shown row),
      total.admits entry.key := by
    simpa using admitted
  have kept := (Ranking.keeps_pushAll total capacity entriesAdmitted).entries
  rw [Ranking.capacity_pushAll, Ranking.pushAll_map, Ranked.sorted] at kept
  rw [Ranking.best, kept, ← List.map_mergeSort fun left one right other =>
    Row.inOrder_eq total (admitted left one) (admitted right other), ← List.map_take, List.map_map]
  rfl

end KeyColumn

namespace Table

/-- In a table a resolved column is the cell at its position. -/
theorem under_eq_cellAt (table : Table) {name : String} {index : Nat}
    (position : requirePosition table.names name = .ok index) {row : Row}
    (member : row ∈ table.rows) : row.under name = row.cellAt index := by
  have found := requirePosition_eq_ok_iff.mp position
  rw [← show row.names = table.names from table.aligned row member] at found
  exact Row.under_eq_cellAt found

theorem of_filter {table found : Table} {filter : Filter}
    (filtered : table.filter filter = .ok found) :
    found.names = table.names ∧ ∀ row ∈ found.rows, row ∈ table.rows := by
  obtain ⟨bound, -, rfl⟩ := map_eq_ok_iff.mp filtered
  exact ⟨rfl, fun row member => (List.mem_filter.mp member).1⟩

/-- Columns that one table has can be chosen from every table of its layout. -/
theorem choose_of_names {table other shown : Table} {columns : Option (List String)}
    (names : other.names = table.names) (chosen : table.choose columns = .ok shown) :
    ∃ shown, other.choose columns = .ok shown := by
  have resolves := other.choose_resolves columns
  rw [names, ← table.choose_resolves columns, chosen] at resolves
  obtain ⟨shown, others, -⟩ := map_eq_ok_iff.mp resolves
  exact ⟨shown, others⟩

theorem sortBy_of_position {table : Table} {key : SortKey} {index : Nat}
    (position : requirePosition table.names key.column = .ok index) :
    ∃ sorted, table.sortBy key.column key.descending = .ok sorted ∧ sorted.names = table.names ∧
      sorted.rows = table.rows.mergeSort (Row.inOrder [(index, key.descending)]) := by
  unfold sortBy sortByKeys bindSortKeys
  rw [position]
  exact ⟨_, rfl, rfl, rfl⟩

/-- Sorting a table by a column of admitted cells is stable. -/
theorem sortBy_stable_of_admitted {table sorted : Table} {key : SortKey}
    (total : Cell.TotalOrder key.descending)
    (admitted : ∀ row ∈ table.rows, total.admits (row.under key.column))
    (sorts : table.sortBy key.column key.descending = .ok sorted) :
    sorted.names = table.names ∧ StableOrder key.order table.rows sorted.rows := by
  cases position : requirePosition table.names key.column with
  | error => simp [sortBy, sortByKeys, bindSortKeys, position, Except.map] at sorts
  | ok index =>
    obtain ⟨ordered, again, names, rows⟩ := sortBy_of_position position
    obtain rfl : ordered = sorted := Except.ok.inj (again.symm.trans sorts)
    refine ⟨names, ?_⟩
    rw [rows]
    exact Row.stableOrder_mergeSort total admitted fun row member =>
      table.under_eq_cellAt position member

/-- Sorting by a column that a table has succeeds, and is stable on exact cells. -/
theorem sortBy_stable {table : Table} {key : SortKey} {index : Nat}
    (position : requirePosition table.names key.column = .ok index)
    (exact : ∀ row ∈ table.rows, (row.under key.column).Exact) :
    ∃ ordered, table.sortBy key.column key.descending = .ok ordered ∧
      ordered.names = table.names ∧ StableOrder key.order table.rows ordered.rows := by
  obtain ⟨ordered, sorts, names, -⟩ := sortBy_of_position position
  exact ⟨ordered, sorts, names,
    (sortBy_stable_of_admitted (.rounded key.descending) exact sorts).2⟩

/-- Sorting by a column is stable where no integer meets a number in it. -/
theorem sortBy_stable_of_unmixed {table sorted : Table} (key : SortKey)
    (sorts : table.sortBy key.column key.descending = .ok sorted)
    (unmixed : Cell.Unmixed (table.rows.map fun row => row.under key.column)) :
    sorted.names = table.names ∧ StableOrder key.order table.rows sorted.rows :=
  sortBy_stable_of_admitted (.kindwise key.descending unmixed)
    (fun _ member => List.mem_map_of_mem member) sorts

/-- Filter a table, sort what is left by a column, cut out a window and project it, counting what
passed the filter. -/
def sortedPage (table : Table) (filter : Filter) (columns : Option (List String)) (key : SortKey)
    (window : Window) : Except Fault Page := do
  let found ← table.filter filter
  let ordered ← found.sortBy key.column key.descending
  let shown ← (ordered.slice window.offset window.limit).choose columns
  return ⟨shown.names, shown.rows, found.size, table.size⟩

/-- A sorted page of a table that has the key column is resolved against its layout only. -/
theorem sortedPage_of_position {table : Table} {key : SortKey} {index : Nat}
    (position : requirePosition table.names key.column = .ok index) (filter : Filter)
    (columns : Option (List String)) (window : Window) :
    table.sortedPage filter columns key window =
      (filter.bind table.names).bind fun bound =>
        (Projection.bindOptional table.names columns).map fun projection =>
          let found := table.rows.filter bound.accepts
          ⟨Projection.optionalNames projection table.names,
            (((found.mergeSort (Row.inOrder [(index, key.descending)])).drop window.offset).take
              window.limit).map (Projection.applyOptional projection),
            found.length, table.rows.length⟩ := by
  unfold sortedPage Table.filter
  cases filter.bind table.names with
  | error => rfl
  | ok bound =>
    let found : Table :=
      { table with
        rows := table.rows.filter bound.accepts
        aligned := fun row member => table.aligned row (List.mem_filter.mp member).1 }
    obtain ⟨ordered, sorts, names, rows⟩ :=
      sortBy_of_position (show requirePosition found.names key.column = .ok index from position)
    have shown := choose_slice_eq ordered columns window found.size table.size
    rw [names, rows] at shown
    refine Eq.trans ?_ shown
    change (found.sortBy key.column key.descending).bind _ = _
    rw [sorts]
    rfl

end Table

namespace Pipeline

/-- A sorted page is made of the ranking that the fold over the matches ends with. -/
theorem sortedPage_eq_map {pipeline : Pipeline} {key : SortKey} {index : Nat}
    (position : requirePosition pipeline.names key.column = .ok index) (filter : Filter)
    (columns : Option (List String)) (window : Window) :
    (pipeline.sortedPage filter columns key window).1 =
      (pipeline.foldMatches filter columns
          (fun projection ranking row =>
            ranking.push (row.cellAt index) (Projection.applyOptional projection row))
          (Ranking.start window.stop key.descending)).1.map
        fun (ranking, names, scanned, matched) =>
          ⟨names, ranking.best.drop window.offset, matched, scanned⟩ := by
  unfold Pipeline.sortedPage
  rw [position]
  dsimp only
  cases pipeline.foldMatches filter columns _ (Ranking.start window.stop key.descending) with
  | mk result after => cases result <;> rfl

/-- The sorted page of a run holds the window of its projected matches, sorted by their key cells. -/
theorem Runs.sortedPage_eq {pipeline after : Pipeline} {rows : List Row} {filter : Filter}
    {columns : Option (List String)} {bound : BoundFilter} {projection : Option Projection}
    {key : SortKey} {index : Nat} (run : Runs pipeline rows after)
    (binds : filter.bind pipeline.names = .ok bound)
    (projects : Projection.bindOptional pipeline.names columns = .ok projection)
    (position : requirePosition pipeline.names key.column = .ok index)
    (total : Cell.TotalOrder key.descending)
    (admitted : ∀ row ∈ rows, total.admits (row.cellAt index)) (window : Window) :
    (pipeline.sortedPage filter columns key window).1 =
      .ok ⟨Projection.optionalNames projection pipeline.names,
        window.cut (((rows.filter bound.accepts).mergeSort
          (Row.inOrder [(index, key.descending)])).map (Projection.applyOptional projection)),
        (rows.filter bound.accepts).length, rows.length⟩ := by
  have matchesAdmitted : ∀ row ∈ rows.filter bound.accepts, total.admits (row.cellAt index) :=
    fun row member => admitted row (List.mem_filter.mp member).1
  rw [sortedPage_eq_map position, run.foldMatches, binds, projects, ← Window.map_cut]
  simp only [Except.bind, Except.map, Ranking.best_foldl_push total window.stop
    (Projection.applyOptional projection) matchesAdmitted, ← List.map_drop]
  rfl

/-- The sorted page of a source without faults is that of the table of its rows. -/
theorem sortedPage_of_runs {pipeline after : Pipeline} {table : Table}
    (run : Runs pipeline table.rows after) (names : table.names = pipeline.names)
    (countable : table.rows.length ≤ maxCount) (filter : Filter) (columns : Option (List String))
    {key : SortKey} (window : Window)
    (exact : ∀ row ∈ table.rows, (row.under key.column).Exact) :
    (pipeline.sortedPage filter columns key window).1 =
      (requirePosition pipeline.names key.column).bind fun _ =>
        table.sortedPage filter columns key window := by
  cases position : requirePosition pipeline.names key.column with
  | error =>
    unfold Pipeline.sortedPage
    rw [position]
    rfl
  | ok index =>
    have tablePosition := position
    rw [← names] at tablePosition
    have keysExact : ∀ row ∈ table.rows, (row.cellAt index).Exact := by
      intro row member
      rw [← table.under_eq_cellAt tablePosition member]
      exact exact row member
    refine Eq.trans ?_ (Table.sortedPage_of_position tablePosition filter columns window).symm
    rw [names]
    cases binds : filter.bind pipeline.names with
    | error =>
      rw [sortedPage_eq_map position, run.foldMatches, binds]
      rfl
    | ok bound =>
      cases projects : Projection.bindOptional pipeline.names columns with
      | error =>
        rw [sortedPage_eq_map position, run.foldMatches, binds, projects]
        rfl
      | ok projection =>
        have few : ((table.rows.filter bound.accepts).mergeSort
            (Row.inOrder [(index, key.descending)])).length ≤ maxCount := by
          rw [List.length_mergeSort]
          exact Nat.le_trans (List.length_filter_le _ _) countable
        rw [run.sortedPage_eq binds projects position (.rounded key.descending) keysExact,
          ← Window.map_cut, Window.cut_eq_slice window few]
        rfl

/-- For every source without faults, every filter and projection that resolve and every key in the
layout, the ranking of bounded size makes the page that filtering the table of all rows, sorting
what is left stably with missing cells last, cutting out the window and projecting it make; its
counts are those of the page in the order of the source. -/
theorem sortedPage_eq_sortedPage_of_table {pipeline : Pipeline} {rows : List Row}
    (assembled : Assembled pipeline) (faultless : pipeline.collect.1 = .ok rows)
    (countable : rows.length ≤ maxCount) (filter : Filter) (columns : Option (List String))
    (key : SortKey) (window : Window) (exact : ∀ row ∈ rows, (row.under key.column).Exact) :
    ∃ table, pipeline.toTable.1 = .ok table ∧ table.names = pipeline.names ∧ table.rows = rows ∧
      (pipeline.sortedPage filter columns key window).1 =
        (requirePosition pipeline.names key.column).bind
          (fun _ => table.sortedPage filter columns key window) ∧
      ∀ found shown, key.column ∈ pipeline.names → table.filter filter = .ok found →
        found.choose columns = .ok shown →
        ∃ ordered page unsorted, found.sortBy key.column key.descending = .ok ordered ∧
          StableOrder key.order found.rows ordered.rows ∧
          (ordered.rows.Pairwise fun earlier later =>
            (earlier.under key.column).isMissing = true →
              (later.under key.column).isMissing = true) ∧
          (pipeline.sortedPage filter columns key window).1 = .ok page ∧
          ((ordered.slice window.offset window.limit).choose columns).map
            (fun shown => (shown.names, shown.rows)) = .ok (page.names, page.rows) ∧
          (pipeline.page filter columns window).1 = .ok unsorted ∧
          page.total = unsorted.total ∧ page.scanned = unsorted.scanned := by
  have run := collect_eq_ok_iff.mp (Prod.ext faultless rfl)
  obtain ⟨table, made, names, rfl⟩ := toTable_of_runs assembled run
  have same := sortedPage_of_runs run names countable filter columns window exact
  refine ⟨table, by rw [made], names, rfl, same, ?_⟩
  intro found shown listed filtered chosen
  obtain ⟨index, found?⟩ := exists_position?_iff.mpr listed
  have position := requirePosition_eq_ok_iff.mpr found?
  obtain ⟨foundNames, foundRows⟩ := Table.of_filter filtered
  have foundExact : ∀ row ∈ found.rows, (row.under key.column).Exact := fun row member =>
    exact row (foundRows row member)
  obtain ⟨ordered, sorts, orderedNames, stable⟩ := Table.sortBy_stable
    (show requirePosition found.names key.column = .ok index by rw [foundNames, names, position])
    foundExact
  obtain ⟨top, topChosen⟩ := Table.choose_of_names
    (show (ordered.slice window.offset window.limit).names = found.names from orderedNames) chosen
  obtain ⟨first, firstChosen⟩ := Table.choose_of_names
    (show (found.slice window.offset window.limit).names = found.names from rfl) chosen
  refine ⟨ordered, ⟨top.names, top.rows, found.size, table.size⟩,
    ⟨first.names, first.rows, found.size, table.size⟩, sorts, stable, ?_, ?_, ?_, ?_, rfl, rfl⟩
  · exact stable.ordered.imp SortKey.isMissing_of_order
  · rw [same, position]
    simp [Except.bind, Table.sortedPage, filtered, sorts, topChosen, bind, pure, Except.pure]
  · rw [topChosen]
    rfl
  · rw [page_of_runs run names countable]
    simp [Table.page, filtered, firstChosen, bind, Except.bind, pure, Except.pure]

/-- The two rows of 2012 tie and stay in order, behind the one of 2020 and before the one without a
year. -/
theorem sortedPage_of_four_rows :
    let rows : List Row :=
      [⟨["Medal", "Year"], [.text "Gold", .integer 2012], rfl⟩,
        ⟨["Medal", "Year"], [.text "Silver", .missing], rfl⟩,
        ⟨["Medal", "Year"], [.text "Bronze", .integer 2020], rfl⟩,
        ⟨["Medal", "Year"], [.text "Silver", .integer 2012], rfl⟩]
    ((ofRows ["Medal", "Year"] rows).sortedPage ⟨[]⟩ (some ["Medal"]) ⟨"Year", true⟩ ⟨1, 2⟩).1 =
      .ok ⟨["Medal"], [⟨["Medal"], [.text "Gold"], rfl⟩, ⟨["Medal"], [.text "Silver"], rfl⟩],
        4, 4⟩ := by
  intro rows
  have run : Runs (ofRows ["Medal", "Year"] rows) rows _ := runs_ofRows (by simp [rows])
  obtain ⟨table, _, names, same, page, _⟩ := sortedPage_eq_sortedPage_of_table (.origin _)
    (congrArg Prod.fst run.collect) (by decide) ⟨[]⟩ (some ["Medal"]) ⟨"Year", true⟩ ⟨1, 2⟩
    (by decide)
  refine page.trans ?_
  have position : requirePosition table.names "Year" = .ok 1 := by
    rw [names]
    rfl
  rw [Table.sortedPage_of_position position, names, same]
  cbv

end Pipeline

end Medals
