import Mathlib.Data.List.Induction
import Medals.Proofs.Stream.Layout
import Medals.Proofs.Table.Binding
import Medals.Stream.Page

/-!
# Pages of a stream and of its table

`Table.page` filters a whole table, cuts the window out and projects it.
`Pipeline.page_eq_page_of_table` says that the one pass of `Pipeline.page`, which holds only the
rows of the window, gives the same page, counts and faults for every source without faults. The
number of rows has to be a count of 64 bits, since the window of a page ends at the greatest of
them.
-/

namespace Medals

namespace Window

/-- The elements of a list at the positions of a window. -/
def cut {α : Type} (window : Window) (elements : List α) : List α :=
  (elements.take window.stop).drop window.offset

/-- Cutting element by element keeps those at the positions that the window holds. -/
theorem cut_concat {α : Type} (window : Window) (elements : List α) (last : α) :
    window.cut (elements ++ [last]) =
      window.cut elements ++ if window.holds elements.length then [last] else [] := by
  unfold cut holds
  by_cases below : elements.length < window.stop
  · rw [List.take_of_length_le (by simp; omega), List.take_of_length_le (by omega)]
    by_cases reached : window.offset ≤ elements.length
    · simp [List.drop_append_of_le_length reached, reached, below]
    · rw [List.drop_of_length_le (by simp; omega), List.drop_of_length_le (by omega)]
      simp [reached]
  · rw [List.take_append_of_le_length (by omega)]
    simp [below]

/-- The end of a window makes no difference to a list whose length is a count. -/
theorem cut_eq_slice {α : Type} (window : Window) {elements : List α}
    (countable : elements.length ≤ maxCount) :
    window.cut elements = (elements.drop window.offset).take window.limit := by
  rw [cut, List.drop_take, List.take_eq_take_iff, List.length_drop]
  unfold stop
  omega

theorem map_cut {α β : Type} (window : Window) (make : α → β) (elements : List α) :
    (window.cut elements).map make = window.cut (elements.map make) := by
  rw [cut, cut, List.map_drop, List.map_take]

end Window

theorem PageState.foldl_add (window : Window) (projection : Option Projection) (rows : List Row) :
    rows.foldl (PageState.add window projection) ⟨[], 0⟩ =
      ⟨((window.cut rows).map (Projection.applyOptional projection)).reverse, rows.length⟩ := by
  induction rows using List.reverseRecOn with
  | nil => simp [Window.cut]
  | append_singleton rows last ih =>
    rw [List.foldl_concat, ih, PageState.add, Window.cut_concat]
    cases window.holds rows.length <;> simp

namespace Table

/-- The named columns, or all of them. -/
def choose (table : Table) : Option (List String) → Except Fault Table
  | none => .ok table
  | some names => table.project names

/-- Filter a table, cut out a window and project it, counting what passed the filter. -/
def page (table : Table) (filter : Filter) (columns : Option (List String)) (window : Window) :
    Except Fault Page := do
  let found ← table.filter filter
  let shown ← (found.slice window.offset window.limit).choose columns
  return ⟨shown.names, shown.rows, found.size, table.size⟩

/-- Choosing columns applies the bound projection to each row. -/
theorem choose_eq (table : Table) (columns : Option (List String)) :
    ((table.choose columns).map fun shown => (shown.names, shown.rows)) =
      (Projection.bindOptional table.names columns).map fun projection =>
        (Projection.optionalNames projection table.names,
          table.rows.map (Projection.applyOptional projection)) := by
  cases columns with
  | none =>
    have unchanged : Projection.applyOptional none = id := rfl
    simp [choose, Projection.bindOptional, Projection.optionalNames, Except.map, unchanged]
  | some names =>
    simp only [choose, project, Projection.bindOptional]
    cases Projection.bind table.names names with
    | error => rfl
    | ok projection =>
      exact congrArg (fun names => Except.ok (names, table.rows.map projection.apply))
        (names_projectedSchema table.schema projection)

theorem choose_resolves (table : Table) (columns : Option (List String)) :
    ((table.choose columns).map fun _ => ()) =
      (Projection.bindOptional table.names columns).map fun _ => () := by
  have chosen := congrArg (Except.map fun _ => ()) (choose_eq table columns)
  cases resolved : Projection.bindOptional table.names columns <;>
    cases shown : table.choose columns <;> rw [resolved, shown] at chosen <;> exact chosen

/-- A window of a table, projected, is that of its rows. -/
theorem choose_slice_eq (table : Table) (columns : Option (List String)) (window : Window)
    (total scanned : Nat) :
    ((table.slice window.offset window.limit).choose columns).bind
        (fun shown => Except.ok (Page.mk shown.names shown.rows total scanned)) =
      (Projection.bindOptional table.names columns).map fun projection =>
        ⟨Projection.optionalNames projection table.names,
          ((table.rows.drop window.offset).take window.limit).map
            (Projection.applyOptional projection),
          total, scanned⟩ := by
  have chosen := choose_eq (table.slice window.offset window.limit) columns
  rw [show (table.slice window.offset window.limit).names = table.names from rfl] at chosen
  have pages := congrArg (Except.map fun shown : List String × List Row =>
    Page.mk shown.1 shown.2 total scanned) chosen
  cases resolved : Projection.bindOptional table.names columns <;>
    cases shown : (table.slice window.offset window.limit).choose columns <;>
    rw [resolved, shown] at pages <;> exact pages

/-- A page of a table is resolved against its layout only. -/
theorem page_eq (table : Table) (filter : Filter) (columns : Option (List String))
    (window : Window) :
    table.page filter columns window =
      (filter.bind table.names).bind fun bound =>
        (Projection.bindOptional table.names columns).map fun projection =>
          let found := table.rows.filter bound.accepts
          ⟨Projection.optionalNames projection table.names,
            ((found.drop window.offset).take window.limit).map
              (Projection.applyOptional projection),
            found.length, table.rows.length⟩ := by
  unfold page Table.filter
  cases filter.bind table.names with
  | error => rfl
  | ok bound => exact choose_slice_eq _ columns window _ _

/-- A page can be made exactly when the filtered table can be projected. -/
theorem page_resolves (table : Table) (filter : Filter) (columns : Option (List String))
    (window : Window) :
    ((table.page filter columns window).map fun _ => ()) =
      (table.filter filter).bind fun found => (found.choose columns).map fun _ => () := by
  rw [page_eq]
  unfold Table.filter
  cases filter.bind table.names with
  | error => rfl
  | ok bound =>
    refine Eq.trans ?_ (choose_resolves _ columns).symm
    simp only [Table.names, Except.bind]
    cases Projection.bindOptional table.schema.names columns <;> rfl

/-- What cannot be resolved is a column. -/
theorem page_error {table : Table} {filter : Filter} {columns : Option (List String)}
    {window : Window} {fault : Fault} (failed : table.page filter columns window = .error fault) :
    ∃ name, fault = .unknownColumn name := by
  rw [page_eq] at failed
  cases binds : filter.bind table.names with
  | error cause =>
    obtain rfl : cause = fault := by simpa [binds, Except.bind] using failed
    obtain ⟨condition, _, same⟩ := Filter.bind_error binds
    exact ⟨condition.column, same⟩
  | ok bound =>
    cases columns with
    | none => simp [binds, Except.bind, Projection.bindOptional, Except.map] at failed
    | some names =>
      cases resolves : Projection.bind table.names names with
      | ok => simp [binds, resolves, Except.bind, Projection.bindOptional, Except.map] at failed
      | error cause =>
        obtain rfl : cause = fault := by
          simpa [binds, resolves, Except.bind, Projection.bindOptional, Except.map] using failed
        obtain ⟨name, _, same⟩ := Projection.bind_error resolves
        exact ⟨name, same⟩

/-- The counts of a page do not depend on its window. -/
theorem page_counts {table : Table} {filter : Filter} {columns : Option (List String)}
    {window : Window} {page : Page} (made : table.page filter columns window = .ok page) :
    page.total = (table.rows.filter fun row => (filter.eval row).toOption = some true).length ∧
      page.scanned = table.rows.length := by
  rw [page_eq] at made
  cases binds : filter.bind table.names with
  | error => simp [binds, Except.bind] at made
  | ok bound =>
    cases resolves : Projection.bindOptional table.names columns with
    | error => simp [binds, resolves, Except.bind, Except.map] at made
    | ok projection =>
      simp only [binds, resolves, Except.bind, Except.map, Except.ok.injEq] at made
      subst made
      refine ⟨congrArg List.length (List.filter_congr fun row member => ?_), rfl⟩
      rw [← show row.names = table.names from table.aligned row member] at binds
      simp [Filter.eval_eq_accepts binds, Except.toOption]

end Table

namespace Pipeline

/-- A stage that only filters, before it has seen a row. -/
def filterStage (bound : BoundFilter) (layout : List String) : Stage :=
  ⟨bound, none, layout, 0, 0⟩

theorem passing_filterStage (bound : BoundFilter) (layout : List String) (rows : List Row) :
    (filterStage bound layout).passing rows = rows.filter bound.accepts := by
  simp [Stage.passing, filterStage, show Projection.applyOptional none = id from rfl]

theorem addStage_unprojected {pipeline : Pipeline} {filter : Filter} {bound : BoundFilter}
    (binds : filter.bind pipeline.names = .ok bound) :
    pipeline.addStage filter none =
      .ok (pipeline.withStage (filterStage bound pipeline.names)) :=
  addStage_eq_ok_iff.mpr ⟨_, Stage.bind_eq_ok_iff.mpr ⟨bound, none, binds, rfl, rfl⟩, rfl⟩

/-- Laying a filter on top of a pipeline, folding what passes it and taking it off again drains the
pipeline, and is a fold over its rows that pass the filter unless that fails. -/
theorem foldMatches_of_drains {α : Type} {pipeline after : Pipeline} {rows : List Row}
    {fault? : Option Fault} {filter : Filter} {columns : Option (List String)} {bound : BoundFilter}
    {projection : Option Projection} (drains : Drains next pipeline rows fault? after)
    (binds : filter.bind pipeline.names = .ok bound)
    (projects : Projection.bindOptional pipeline.names columns = .ok projection)
    (step : Option Projection → α → Row → α) (state : α) :
    pipeline.foldMatches filter columns step state =
      (fault?.elim (.ok ((rows.filter bound.accepts).foldl (step projection) state,
        Projection.optionalNames projection pipeline.names, rows.length,
        (rows.filter bound.accepts).length)) .error, after) := by
  have folded := fold_of_drains (drains_withStage drains (filterStage bound pipeline.names))
    (step projection) state
  have counts : (after.withStage ((filterStage bound pipeline.names).counted rows)).topCounts =
      (rows.length, (rows.filter bound.accepts).length) := by
    simp [topCounts, Pipeline.withStage, Stage.counted, filterStage]
  have dropped : (after.withStage ((filterStage bound pipeline.names).counted rows)).dropStage =
      after := by
    simp [dropStage, Pipeline.withStage]
  rw [passing_filterStage] at folded
  simp only [Pipeline.foldMatches, addStage_unprojected binds, projects, folded]
  cases fault? <;> simp [counts, dropped]

/-- Over a run a fold of the matches is a fold over the rows that pass the filter. -/
theorem Runs.foldMatches {α : Type} {pipeline after : Pipeline} {rows : List Row}
    (run : Runs pipeline rows after) (filter : Filter) (columns : Option (List String))
    (step : Option Projection → α → Row → α) (state : α) :
    (pipeline.foldMatches filter columns step state).1 =
      (filter.bind pipeline.names).bind fun bound =>
        (Projection.bindOptional pipeline.names columns).map fun projection =>
          ((rows.filter bound.accepts).foldl (step projection) state,
            Projection.optionalNames projection pipeline.names, rows.length,
            (rows.filter bound.accepts).length) := by
  cases binds : filter.bind pipeline.names with
  | error =>
    simp only [Pipeline.foldMatches, addStage, Stage.bind, binds]
    rfl
  | ok bound =>
    cases projects : Projection.bindOptional pipeline.names columns with
    | error =>
      simp only [Pipeline.foldMatches, addStage_unprojected binds, projects]
      rfl
    | ok projection =>
      rw [foldMatches_of_drains (runs_iff_drains.mp run) binds projects]
      rfl

/-- A page is made of the state that the fold over the matches ends with. -/
theorem page_eq_map (pipeline : Pipeline) (filter : Filter) (columns : Option (List String))
    (window : Window) :
    (pipeline.page filter columns window).1 =
      (pipeline.foldMatches filter columns (PageState.add window) ⟨[], 0⟩).1.map
        fun (state, names, scanned, matched) =>
          ⟨names, state.rows.reverse, matched, scanned⟩ := by
  unfold Pipeline.page
  cases pipeline.foldMatches filter columns (PageState.add window) ⟨[], 0⟩ with
  | mk result after => cases result <;> rfl

/-- The page of a run holds the window of its projected matches. -/
theorem Runs.page_eq {pipeline after : Pipeline} {rows : List Row} {filter : Filter}
    {columns : Option (List String)} {bound : BoundFilter} {projection : Option Projection}
    (run : Runs pipeline rows after) (binds : filter.bind pipeline.names = .ok bound)
    (projects : Projection.bindOptional pipeline.names columns = .ok projection)
    (window : Window) :
    (pipeline.page filter columns window).1 =
      .ok ⟨Projection.optionalNames projection pipeline.names,
        window.cut ((rows.filter bound.accepts).map (Projection.applyOptional projection)),
        (rows.filter bound.accepts).length, rows.length⟩ := by
  rw [page_eq_map, run.foldMatches, binds, projects, ← Window.map_cut]
  simp [Except.bind, Except.map, PageState.foldl_add]

/-- The page of a source without faults is that of the table of its rows. -/
theorem page_of_runs {pipeline after : Pipeline} {table : Table}
    (run : Runs pipeline table.rows after) (names : table.names = pipeline.names)
    (countable : table.rows.length ≤ maxCount) (filter : Filter) (columns : Option (List String))
    (window : Window) :
    (pipeline.page filter columns window).1 = table.page filter columns window := by
  rw [Table.page_eq, names]
  cases binds : filter.bind pipeline.names with
  | error =>
    rw [page_eq_map, run.foldMatches, binds]
    rfl
  | ok bound =>
    cases projects : Projection.bindOptional pipeline.names columns with
    | error =>
      rw [page_eq_map, run.foldMatches, binds, projects]
      rfl
    | ok projection =>
      have few : (table.rows.filter bound.accepts).length ≤ maxCount :=
        Nat.le_trans (List.length_filter_le _ _) countable
      rw [run.page_eq binds projects, ← Window.map_cut, Window.cut_eq_slice window few]
      rfl

/-- For every source without faults one pass makes the page that filtering, cutting and projecting
the table of its rows makes. It succeeds exactly when that table can be filtered and projected,
fails on the same unknown column, and counts alike for every window. -/
theorem page_eq_page_of_table {pipeline : Pipeline} {rows : List Row}
    (assembled : Assembled pipeline) (faultless : pipeline.collect.1 = .ok rows)
    (countable : rows.length ≤ maxCount) (filter : Filter) (columns : Option (List String))
    (window : Window) :
    ∃ table, pipeline.toTable.1 = .ok table ∧ table.names = pipeline.names ∧ table.rows = rows ∧
      (pipeline.page filter columns window).1 = table.page filter columns window ∧
      ((pipeline.page filter columns window).1.map fun _ => ()) =
        ((table.filter filter).bind fun found => (found.choose columns).map fun _ => ()) ∧
      (∀ fault, (pipeline.page filter columns window).1 = .error fault →
        ∃ name, fault = .unknownColumn name) ∧
      ∀ page, (pipeline.page filter columns window).1 = .ok page →
        page.total = (rows.filter fun row => (filter.eval row).toOption = some true).length ∧
        page.scanned = rows.length := by
  have run := collect_eq_ok_iff.mp (Prod.ext faultless rfl)
  obtain ⟨table, made, names, rfl⟩ := toTable_of_runs assembled run
  have same := page_of_runs run names countable filter columns window
  refine ⟨table, by rw [made], names, rfl, same, ?_, ?_, ?_⟩
  · rw [same]
    exact table.page_resolves filter columns window
  · intro fault failed
    exact Table.page_error (same ▸ failed)
  · intro page success
    exact Table.page_counts (same ▸ success)

/-- Two rows have a medal. Behind the first of them one is left, of which the year is shown. -/
theorem page_of_three_rows :
    let rows : List Row :=
      [⟨["Year", "Medal"], [.integer 2012, .text "Gold"], rfl⟩,
        ⟨["Year", "Medal"], [.integer 2016, .missing], rfl⟩,
        ⟨["Year", "Medal"], [.integer 2020, .text "Silver"], rfl⟩]
    ((ofRows ["Year", "Medal"] rows).page ⟨[.present "Medal"]⟩ (some ["Year"]) ⟨1, maxCount⟩).1 =
      .ok ⟨["Year"], [⟨["Year"], [.integer 2020], rfl⟩], 2, 3⟩ := by
  intro rows
  have run : Runs (ofRows ["Year", "Medal"] rows) rows _ := runs_ofRows (by simp [rows])
  obtain ⟨table, _, names, same, page, _⟩ := page_eq_page_of_table (.origin _)
    (congrArg Prod.fst run.collect) (by decide) ⟨[.present "Medal"]⟩ (some ["Year"]) ⟨1, maxCount⟩
  refine page.trans ?_
  rw [Table.page_eq, names, same]
  rfl

end Pipeline

end Medals
