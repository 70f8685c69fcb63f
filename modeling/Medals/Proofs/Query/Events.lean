import Medals.Proofs.Csv.Declared
import Medals.Proofs.Query.Success
import Medals.Proofs.Stream.Grouping
import Medals.Proofs.Stream.SortedPage
import Medals.Proofs.Stream.Source
import Medals.Query.Search

/-!
# The events as queries see them

Every query reads the events in one pass from the first to the last. `Engine.ReadsEvents` is such a
pass. `Engine.EventGroups.reads` finds it in every query that groups events and succeeds, and
`Engine.ReadsEvents.eventGroups` and `Engine.ReadsEvents.search` say what such a pass is good for.
-/

namespace Medals

namespace Pipeline

theorem Runs.unique {pipeline after last : Pipeline} {rows others : List Row}
    (run : Runs pipeline rows after) (other : Runs pipeline others last) :
    rows = others ∧ after = last := by
  obtain ⟨same, rest⟩ := Prod.mk.inj (run.collect.symm.trans other.collect)
  exact ⟨Except.ok.inj same, rest⟩

theorem names_withStage (pipeline : Pipeline) (stage : Stage) :
    (pipeline.withStage stage).names = stage.names := by
  simp [names, withStage]

theorem addStage_unprojected_iff {pipeline filtered : Pipeline} {filter : Filter} :
    pipeline.addStage filter none = .ok filtered ↔
      ∃ bound, filter.bind pipeline.names = .ok bound ∧
        filtered = pipeline.withStage (filterStage bound pipeline.names) := by
  constructor
  · intro staged
    obtain ⟨stage, laid, rfl⟩ := addStage_eq_ok_iff.mp staged
    obtain ⟨bound, projection, binds, projects, rfl⟩ := Stage.bind_eq_ok_iff.mp laid
    obtain rfl : none = projection := Except.ok.inj projects
    exact ⟨bound, binds, rfl⟩
  · rintro ⟨bound, binds, rfl⟩
    exact addStage_unprojected binds

/-- What groups a pipeline has run through it. -/
theorem runs_of_groupBy {pipeline : Pipeline} {grouping : Grouping} {counts : Table}
    (grouped : (pipeline.groupBy grouping).1 = .ok counts) :
    ∃ groups rows last, Groups.bind grouping pipeline.names = .ok groups ∧
      Runs pipeline rows last ∧ (rows.foldl Groups.add groups).table = .ok counts := by
  unfold Pipeline.groupBy at grouped
  cases accepted : Groups.bind grouping pipeline.names with
  | error => simp [accepted] at grouped
  | ok groups =>
    simp only [accepted] at grouped
    cases folded : pipeline.fold Groups.add groups with
    | mk result last =>
      cases result with
      | error => simp [folded] at grouped
      | ok all =>
        obtain ⟨rows, run⟩ := runs_of_fold folded
        obtain ⟨same, -⟩ := Prod.mk.inj ((run.fold Groups.add groups).symm.trans folded)
        refine ⟨groups, rows, last, rfl, run, ?_⟩
        rw [folded] at grouped
        rw [Except.ok.inj same]
        exact grouped

end Pipeline

/-- The year of an event, if it has one. -/
def Row.year? (row : Row) : Option Int :=
  (row.under "Year").whole?

/-- Compare years, missing ones last. -/
def compareYears : Option Int → Option Int → Ordering
  | some first, some second => compare first second
  | some _, none => .lt
  | none, some _ => .gt
  | none, none => .eq

/-- On years that are integers the key of a search compares these integers. -/
theorem SortKey.order_year {left right : Row} (leftWhole : (left.under "Year").IntegerOrMissing)
    (rightWhole : (right.under "Year").IntegerOrMissing) :
    (⟨"Year", false⟩ : SortKey).order left right = compareYears left.year? right.year? := by
  unfold SortKey.order Row.year?
  rcases leftWhole with missing | ⟨first, whole⟩ <;>
    rcases rightWhole with other | ⟨second, other⟩ <;> simp only [*] <;> rfl

/-- The matches in the order in which a search pages them: as they come, or by year, missing years
last, and as they come within a year. -/
def SearchOrder.Arranges : SearchOrder → List Row → List Row → Prop
  | .file, found, ordered => ordered = found
  | .year, found, ordered =>
    StableOrder (fun first second => compareYears first.year? second.year?) found ordered

theorem SearchOrder.Arranges.perm {order : SearchOrder} {found ordered : List Row}
    (arranges : order.Arranges found ordered) : ordered.Perm found := by
  cases order with
  | file => exact .of_eq arranges
  | year => exact StableOrder.perm arranges

namespace Engine

variable {engine : Engine} {files : Files}

/-- The rows of the events. -/
def eventRows (engine : Engine) (files : Files) : Except Fault (List Row) := do
  let reader ← engine.openTable files .events
  (Pipeline.ofReader reader).collect.1

/-- The columns that make an event a medal of a year. -/
def medalColumns : List String := ["NOC", "Year", "Medal"]

/-- The events can be opened, and read from the first to the last. -/
structure ReadsEvents (engine : Engine) (files : Files) (reader : RowReader) (events : List Row) :
    Prop where
  opened : engine.openTable files .events = .ok reader
  run : ∃ last, Pipeline.Runs (.ofReader reader) events last

/-- A table opens when its file is there and its data do. -/
theorem openTable_eq_ok_iff {table : Dataset} {reader : RowReader} :
    engine.openTable files table = .ok reader ↔
      ∃ path file, engine.settings.path table = .ok path ∧ files.find path = .file file ∧
        RowReader.openData file.bytes path (engine.settings.readOptionsOf table) = .ok reader := by
  unfold openTable openWith openFile
  cases leads : engine.settings.path table with
  | error => simp [bind, Except.bind]
  | ok path =>
    cases found : files.find path with
    | missing => simp [bind, Except.bind, found, throw, throwThe, MonadExceptOf.throw]
    | directory => simp [bind, Except.bind, found, throw, throwThe, MonadExceptOf.throw]
    | file file =>
      cases opened : RowReader.openData file.bytes path (engine.settings.readOptionsOf table) <;>
        simp [bind, Except.bind, pure, Except.pure, found, opened, throw, throwThe,
          MonadExceptOf.throw]

theorem openTable_of_file {table : Dataset} {path : String} {file : StoredFile}
    (leads : engine.settings.path table = .ok path) (found : files.find path = .file file)
    {reader : RowReader} :
    engine.openTable files table = .ok reader ↔
      RowReader.openData file.bytes path (engine.settings.readOptionsOf table) = .ok reader := by
  rw [openTable_eq_ok_iff, leads]
  simp [found]

namespace ReadsEvents

variable {reader : RowReader} {events : List Row}

theorem eventRows_eq (reads : engine.ReadsEvents files reader events) :
    engine.eventRows files = .ok events := by
  obtain ⟨last, run⟩ := reads.run
  rw [eventRows, reads.opened]
  exact congrArg Prod.fst run.collect

/-- An event is the row of a record. -/
theorem exists_record (reads : engine.ReadsEvents files reader events) {row : Row}
    (member : row ∈ events) :
    ∃ record, row = (engine.settings.readOptionsOf .events).rowOf reader.names record := by
  obtain ⟨_, _, -, -, opened⟩ := openTable_eq_ok_iff.mp reads.opened
  obtain ⟨last, run⟩ := reads.run
  exact Pipeline.row_of_runs opened run member

theorem aligned (reads : engine.ReadsEvents files reader events) :
    ∀ row ∈ events, row.names = reader.names := by
  intro row member
  obtain ⟨record, rfl⟩ := reads.exists_record member
  rfl

/-- The year of an event is an integer or missing. -/
theorem integerOrMissing_year (reads : engine.ReadsEvents files reader events) :
    ∀ row ∈ events, (row.under "Year").IntegerOrMissing := by
  intro row member
  obtain ⟨record, rfl⟩ := reads.exists_record member
  exact ReadOptions.integerOrMissing_under rfl

/-- Years of any size can be ordered, since they meet no numbers. -/
theorem unmixed_year (reads : engine.ReadsEvents files reader events) :
    Cell.Unmixed (events.map fun row => row.under "Year") := by
  intro value number _ other
  obtain ⟨row, member, same⟩ := List.mem_map.mp other
  rcases reads.integerOrMissing_year row member with missing | ⟨year, whole⟩
  · exact nomatch same.symm.trans missing
  · exact nomatch same.symm.trans whole

end ReadsEvents

section Groups

variable {filter : Filter} {grouping : Grouping} {counted : Pipeline} {counts : Table}

/-- Events are grouped in one pass over those that pass the filter. -/
theorem EventGroups.reads (groups : engine.EventGroups files filter grouping counted counts) :
    ∃ reader events bound start, engine.ReadsEvents files reader events ∧
      filter.bind reader.names = .ok bound ∧ Groups.bind grouping reader.names = .ok start ∧
      ((events.filter bound.accepts).foldl Groups.add start).table = .ok counts := by
  obtain ⟨⟨reader, opened, staged⟩, grouped⟩ := groups
  obtain ⟨bound, binds, rfl⟩ := Pipeline.addStage_unprojected_iff.mp staged
  obtain ⟨start, rows, last, accepted, run, made⟩ := Pipeline.runs_of_groupBy grouped
  obtain ⟨events, final, below⟩ := Pipeline.runs_of_withStage run
  -- The run through the filter is the one that was grouped, since runs are unique.
  obtain ⟨rfl, -⟩ := run.unique (below.withStage _)
  rw [Pipeline.names_withStage] at accepted
  rw [Pipeline.passing_filterStage] at made
  exact ⟨reader, events, bound, start, ⟨opened, final, below⟩, binds, accepted, made⟩

theorem ReadsEvents.eventGroups {reader : RowReader} {events : List Row} {bound : BoundFilter}
    {start : Groups} (reads : engine.ReadsEvents files reader events)
    (binds : filter.bind reader.names = .ok bound)
    (accepted : Groups.bind grouping reader.names = .ok start)
    (made : ((events.filter bound.accepts).foldl Groups.add start).table = .ok counts) :
    ∃ counted, engine.EventGroups files filter grouping counted counts := by
  obtain ⟨last, run⟩ := reads.run
  let stage := Pipeline.filterStage bound reader.names
  have staged : (Pipeline.ofReader reader).addStage filter none =
      .ok ((Pipeline.ofReader reader).withStage stage) := Pipeline.addStage_unprojected binds
  refine ⟨_, ⟨reader, reads.opened, staged⟩, ?_⟩
  have layout : ((Pipeline.ofReader reader).withStage stage).names = reader.names :=
    Pipeline.names_withStage _ _
  rw [Pipeline.groupBy_of_collect (layout.symm ▸ accepted)
    (congrArg Prod.fst (run.withStage stage).collect), Pipeline.passing_filterStage]
  exact made

end Groups

namespace ReadsEvents

variable {reader : RowReader} {events : List Row} {params : SearchParams} {bound : BoundFilter}
  {projection : Option Projection}

/-- Every page that a search makes is a window of its matches in one order. -/
theorem exists_searchedPage (reads : engine.ReadsEvents files reader events)
    (binds : params.filter.bind reader.names = .ok bound)
    (projects : Projection.bindOptional reader.names params.columns = .ok projection)
    (year : params.order = .year → "Year" ∈ reader.names) :
    ∃ ordered, params.order.Arranges (events.filter bound.accepts) ordered ∧
      ∀ number size,
        (searchedPage { params with page := number, pageSize := size } (.ofReader reader)).1 =
          .ok ⟨Projection.optionalNames projection reader.names,
            (Window.ofPage (max number 1) size).cut
              (ordered.map (Projection.applyOptional projection)),
            (events.filter bound.accepts).length, events.length⟩ := by
  obtain ⟨last, run⟩ := reads.run
  unfold searchedPage
  cases order : params.order with
  | file => exact ⟨_, rfl, fun number size => run.page_eq binds projects _⟩
  | year =>
    let key : SortKey := ⟨"Year", false⟩
    obtain ⟨index, position⟩ : ∃ index, requirePosition reader.names key.column = .ok index :=
      exists_requirePosition_iff.mpr (year order)
    have cells : ∀ row ∈ events, row.under key.column = row.cellAt index := fun row member =>
      Row.under_eq_cellAt ((reads.aligned row member).symm ▸ requirePosition_eq_ok_iff.mp position)
    have unmixed : Cell.Unmixed (events.map fun row => row.under key.column) := reads.unmixed_year
    have listed : ∀ row ∈ events,
        row.under key.column ∈ events.map fun row => row.under key.column :=
      fun row member => List.mem_map_of_mem member
    refine ⟨_, ?_, fun number size => run.sortedPage_eq binds projects position
      (.kindwise key.descending unmixed) (fun row member => cells row member ▸ listed row member) _⟩
    have found : ∀ row ∈ events.filter bound.accepts, row ∈ events := fun row member =>
      (List.mem_filter.mp member).1
    have stable := Row.stableOrder_mergeSort (.kindwise key.descending unmixed)
      (fun row member => listed row (found row member)) fun row member => cells row (found row member)
    exact stable.congr fun left one right other => SortKey.order_year
      (reads.integerOrMissing_year left (found left one))
      (reads.integerOrMissing_year right (found right other))

/-- All pages of a search that reads the events are windows of its matches in one order. -/
theorem search_pages (reads : engine.ReadsEvents files reader events)
    (binds : params.filter.bind reader.names = .ok bound)
    (projects : Projection.bindOptional reader.names params.columns = .ok projection)
    (year : params.order = .year → "Year" ∈ reader.names) :
    ∃ ordered, params.order.Arranges (events.filter bound.accepts) ordered ∧
      ∀ number size, 0 < size → size ≤ engine.settings.maxPageSize →
        ∃ found, engine.search files { params with page := number, pageSize := size } = .ok found ∧
          found.total = (events.filter bound.accepts).length ∧
          found.rows = (Window.ofPage (max number 1) size).cut
            (ordered.map (Projection.applyOptional projection)) := by
  obtain ⟨ordered, arranges, pages⟩ := reads.exists_searchedPage binds projects year
  refine ⟨ordered, arranges, fun number size positive capped => ?_⟩
  exact ⟨_, search_eq_ok_iff.mpr ⟨⟨positive, capped⟩, reader, _, _, reads.opened,
    Prod.ext (pages number size) rfl, rfl⟩, rfl, rfl⟩

/-- A search counts the events that pass its filter, on every page and in both orders. -/
theorem search (reads : engine.ReadsEvents files reader events) (positive : 0 < params.pageSize)
    (capped : params.pageSize ≤ engine.settings.maxPageSize)
    (binds : params.filter.bind reader.names = .ok bound)
    (projects : Projection.bindOptional reader.names params.columns = .ok projection)
    (year : "Year" ∈ reader.names) :
    ∃ found, engine.search files params = .ok found ∧
      found.total = (events.filter bound.accepts).length := by
  obtain ⟨_, -, pages⟩ := reads.search_pages binds projects fun _ => year
  obtain ⟨found, made, total, -⟩ := pages params.page params.pageSize positive capped
  exact ⟨found, made, total⟩

end ReadsEvents

end Engine

end Medals
