import Medals.Proofs.Stream.Run
import Medals.Proofs.Table.Alignment

/-!
# The layout of streamed rows

`Pipeline.Assembled` covers what can be put together from an origin, filter and projection stages
and single pulls. Such a pipeline keeps its layout while it is pulled and lays all its rows out by
it, so that the rows of a run always make a table (`Pipeline.toTable_of_runs`).
-/

namespace Medals

namespace RowReader

theorem map_name_observe (columns : List SourceColumn) (cells : List Cell)
    (width : columns.length ≤ cells.length) :
    (columns.zipWith (fun column cell => { column with seen := column.seen.observe cell })
      cells).map SourceColumn.name = columns.map SourceColumn.name := by
  induction columns generalizing cells with
  | nil => rfl
  | cons column rest ih =>
    cases cells with
    | nil => simp at width
    | cons cell others => simpa using ih others (by simpa using width)

theorem names_emit (reader : RowReader) (record : Csv.Record) :
    (reader.emit (reader.rowOf record)).names = reader.names :=
  map_name_observe reader.columns _ (by simp [rowOf])

/-- Reading changes neither the layout of a reader nor that of its rows. -/
theorem names_next (reader : RowReader) :
    reader.next.2.names = reader.names ∧
      ∀ row, reader.next.1 = .ok (some row) → row.names = reader.names := by
  fun_induction RowReader.next reader with
  | case1 => simp
  | case2 => simp [names]
  | case3 => simp [names]
  | case4 reader _ _ record cursor _ after _ row =>
    refine ⟨names_emit after record, fun row' yielded => ?_⟩
    obtain rfl : row = row' := by simpa using yielded
    rfl
  | case5 reader _ _ record cursor _ after fault _ after' _ ih => exact ih
  | case6 => exact ⟨rfl, by simp⟩
  | case7 reader _ _ record cursor _ after fault _ after' _ row =>
    refine ⟨names_emit after' record, fun row' yielded => ?_⟩
    obtain rfl : row = row' := by simpa using yielded
    rfl

theorem names_schema (reader : RowReader) : reader.schema.names = reader.names := by
  simp [schema, Schema.names, names, SourceColumn.column, Observation.column, Function.comp_def]

end RowReader

namespace Origin

/-- Pulling changes neither the layout of an origin nor that of its rows. -/
theorem names_next (origin : Origin) :
    origin.next.2.names = origin.names ∧
      ∀ row, origin.next.1 = .ok (some row) → row.names = origin.names := by
  match origin with
  | .memory layout [] => simp [next, names]
  | .memory layout (first :: rest) =>
    rw [next]
    split
    · next aligned =>
      refine ⟨rfl, fun row yielded => ?_⟩
      obtain rfl : first = row := by simpa using yielded
      exact aligned
    · simp [names]
  | .text reader => exact reader.names_next

end Origin

namespace Stage

/-- The layout of the rows above some stages over rows of a layout. -/
def topNames (layout : List String) (stages : List Stage) : List String :=
  match stages.getLast? with
  | some stage => stage.names
  | none => layout

theorem topNames_cons (layout : List String) (stage : Stage) (above : List Stage) :
    topNames layout (stage :: above) = topNames stage.names above := by
  cases above with
  | nil => rfl
  | cons => simp [topNames, List.getLast?_cons]

/-- Each stage shows its rows by the layout that its projection makes of the one below it. -/
def Laid : List String → List Stage → Prop
  | _, [] => True
  | layout, stage :: above =>
    stage.names = Projection.optionalNames stage.projection layout ∧ Laid stage.names above

theorem Laid.append {layout : List String} {stages : List Stage} {top : Stage}
    (laid : Laid layout stages)
    (onTop : top.names = Projection.optionalNames top.projection (topNames layout stages)) :
    Laid layout (stages ++ [top]) := by
  induction stages generalizing layout with
  | nil => exact ⟨onTop, trivial⟩
  | cons stage above ih =>
    rw [topNames_cons] at onTop
    exact ⟨laid.1, ih laid.2 onTop⟩

theorem names_applyOptional {projection : Option Projection} {row : Row} {layout : List String}
    (aligned : row.names = layout) :
    (Projection.applyOptional projection row).names =
      Projection.optionalNames projection layout := by
  cases projection with
  | none => exact aligned
  | some => rfl

/-- Offering a row leaves stages laid, and a row that passes has the layout of the topmost. -/
theorem Laid.offerAll {layout : List String} {stages : List Stage} {row : Row}
    (laid : Laid layout stages) (aligned : row.names = layout) :
    Laid layout (Stage.offerAll stages row).2 ∧
      topNames layout (Stage.offerAll stages row).2 = topNames layout stages ∧
      ∀ passed, (Stage.offerAll stages row).1 = some passed →
        passed.names = topNames layout stages := by
  induction stages generalizing layout row with
  | nil =>
    refine ⟨trivial, rfl, fun passed same => ?_⟩
    obtain rfl : row = passed := by simpa [Stage.offerAll] using same
    exact aligned
  | cons stage above ih =>
    rw [Stage.offerAll, offer_eq]
    cases stage.filter.accepts row with
    | false =>
      refine ⟨⟨laid.1, laid.2⟩, ?_, by simp⟩
      simp [topNames_cons, counted]
    | true =>
      have shown : (Projection.applyOptional stage.projection row).names = stage.names :=
        (names_applyOptional aligned).trans laid.1.symm
      obtain ⟨laidAbove, sameTop, passes⟩ := ih laid.2 shown
      rw [topNames_cons]
      exact ⟨⟨laid.1, laidAbove⟩, (topNames_cons _ _ _).trans sameTop, passes⟩

theorem bind_eq_ok_iff {layout : List String} {filter : Filter} {columns : Option (List String)}
    {stage : Stage} : bind layout filter columns = .ok stage ↔
      ∃ bound projection, filter.bind layout = .ok bound ∧
        Projection.bindOptional layout columns = .ok projection ∧
        stage = ⟨bound, projection, Projection.optionalNames projection layout, 0, 0⟩ := by
  simp [bind, Medals.bind_eq_ok_iff, pure, Except.pure, @eq_comm _ stage]

end Stage

namespace Pipeline

/-- What origins, stages laid on top and single pulls can make. -/
inductive Assembled : Pipeline → Prop where
  | origin (origin : Origin) : Assembled (ofOrigin origin)
  | stage {below pipeline : Pipeline} {filter : Filter} {columns : Option (List String)}
      (assembled : Assembled below) (laid : below.addStage filter columns = .ok pipeline) :
      Assembled pipeline
  | pull {pipeline : Pipeline} (assembled : Assembled pipeline) : Assembled pipeline.next.2

theorem names_eq_topNames (pipeline : Pipeline) :
    pipeline.names = Stage.topNames pipeline.origin.names pipeline.stages := rfl

/-- Another origin of the same layout leaves the layout as it is. -/
theorem laid_of_origin {pipeline : Pipeline} {origin : Origin}
    (laid : Stage.Laid pipeline.origin.names pipeline.stages)
    (kept : origin.names = pipeline.origin.names) :
    Stage.Laid origin.names pipeline.stages ∧
      ({ pipeline with origin } : Pipeline).names = pipeline.names := by
  rw [names_eq_topNames, names_eq_topNames, kept]
  exact ⟨laid, rfl⟩

/-- Pulling keeps the stages laid and the layout as it is, and rows come by that layout. -/
theorem laid_next {pipeline : Pipeline} (laid : Stage.Laid pipeline.origin.names pipeline.stages) :
    Stage.Laid pipeline.next.2.origin.names pipeline.next.2.stages ∧
      pipeline.next.2.names = pipeline.names ∧
      ∀ row, pipeline.next.1 = .ok (some row) → row.names = pipeline.names := by
  fun_induction Pipeline.next pipeline with
  | case1 pipeline fault origin found =>
    have kept := pipeline.origin.names_next.1
    rw [found] at kept
    obtain ⟨laidAfter, sameNames⟩ := laid_of_origin laid kept
    exact ⟨laidAfter, sameNames, by simp⟩
  | case2 pipeline origin found =>
    have kept := pipeline.origin.names_next.1
    rw [found] at kept
    obtain ⟨laidAfter, sameNames⟩ := laid_of_origin laid kept
    exact ⟨laidAfter, sameNames, by simp⟩
  | case3 pipeline row origin found passed stages offered =>
    obtain ⟨kept, aligned⟩ := pipeline.origin.names_next
    rw [found] at kept aligned
    have above := laid.offerAll (aligned row rfl)
    rw [offered] at above
    refine ⟨kept ▸ above.1, ?_, fun row' yielded => ?_⟩
    · rw [names_eq_topNames, names_eq_topNames, kept]
      exact above.2.1
    · obtain rfl : passed = row' := by simpa using yielded
      exact above.2.2 passed rfl
  | case4 pipeline row origin found stages offered ih =>
    obtain ⟨kept, aligned⟩ := pipeline.origin.names_next
    rw [found] at kept aligned
    have above := laid.offerAll (aligned row rfl)
    rw [offered] at above
    have sameNames : (⟨origin, stages⟩ : Pipeline).names = pipeline.names := by
      rw [names_eq_topNames, names_eq_topNames, kept]
      exact above.2.1
    rw [← sameNames]
    exact ih (kept ▸ above.1)

/-- A stage is laid on top once it is bound to the layout of what is below. -/
theorem addStage_eq_ok_iff {below pipeline : Pipeline} {filter : Filter}
    {columns : Option (List String)} :
    below.addStage filter columns = .ok pipeline ↔
      ∃ stage, Stage.bind below.names filter columns = .ok stage ∧
        pipeline = below.withStage stage := by
  simp [addStage, bind_eq_ok_iff, pure, Except.pure, withStage, @eq_comm _ pipeline]

theorem laid_of_addStage {below pipeline : Pipeline} {filter : Filter}
    {columns : Option (List String)} (laidBelow : Stage.Laid below.origin.names below.stages)
    (laid : below.addStage filter columns = .ok pipeline) :
    Stage.Laid pipeline.origin.names pipeline.stages := by
  obtain ⟨stage, bound, rfl⟩ := addStage_eq_ok_iff.mp laid
  obtain ⟨tests, projection, -, -, rfl⟩ := Stage.bind_eq_ok_iff.mp bound
  exact laidBelow.append rfl

theorem Assembled.laid {pipeline : Pipeline} (assembled : Assembled pipeline) :
    Stage.Laid pipeline.origin.names pipeline.stages := by
  induction assembled with
  | origin => trivial
  | stage _ laid ih => exact laid_of_addStage ih laid
  | pull _ ih => exact (laid_next ih).1

/-- All rows that are pulled have the layout of the pipeline, which is the same afterwards. -/
theorem aligned_of_drains {pipeline after : Pipeline} {rows : List Row} {fault? : Option Fault}
    (drains : Drains next pipeline rows fault? after)
    (laid : Stage.Laid pipeline.origin.names pipeline.stages) :
    after.names = pipeline.names ∧ ∀ row ∈ rows, row.names = pipeline.names := by
  induction drains with
  | ended found =>
    have next := laid_next laid
    rw [found] at next
    exact ⟨next.2.1, by simp⟩
  | failed found =>
    have next := laid_next laid
    rw [found] at next
    exact ⟨next.2.1, by simp⟩
  | pulled found _ ih =>
    have next := laid_next laid
    rw [found] at next
    obtain ⟨laidAfter, kept, yielded⟩ := next
    obtain ⟨same, aligned⟩ := ih laidAfter
    refine ⟨same.trans kept, fun row member => ?_⟩
    rcases List.mem_cons.mp member with rfl | later
    · exact yielded row rfl
    · exact (aligned row later).trans kept

/-- All rows of a run have the layout of the pipeline, which is the same at the end. -/
theorem Runs.aligned {pipeline after : Pipeline} {rows : List Row}
    (run : Runs pipeline rows after) (laid : Stage.Laid pipeline.origin.names pipeline.stages) :
    after.names = pipeline.names ∧ ∀ row ∈ rows, row.names = pipeline.names :=
  aligned_of_drains (runs_iff_drains.mp run) laid

theorem names_of_schema? {pipeline : Pipeline} {schema : Schema}
    (tracked : pipeline.schema? = some schema) : schema.names = pipeline.names := by
  unfold schema? at tracked
  split at tracked
  · next bare =>
    rw [names_eq_topNames, List.isEmpty_iff.mp bare]
    cases source : pipeline.origin with
    | memory => simp [source, Origin.schema?] at tracked
    | text reader =>
      obtain rfl : reader.schema = schema := by simpa [source, Origin.schema?] using tracked
      exact reader.names_schema
  · simp at tracked

/-- The rows of a source without faults make a table of the layout of the source. -/
theorem toTable_of_runs {pipeline after : Pipeline} {rows : List Row}
    (assembled : Assembled pipeline) (run : Runs pipeline rows after) :
    ∃ table, pipeline.toTable = (.ok table, after) ∧ table.names = pipeline.names ∧
      table.rows = rows := by
  obtain ⟨kept, aligned⟩ := run.aligned assembled.laid
  cases tracked : after.schema? with
  | none =>
    obtain ⟨table, built, names, same⟩ := Table.inferred_ok aligned
    refine ⟨table, ?_, names, same⟩
    simp [toTable, run.collect, tracked, built]
  | some schema =>
    have names := (names_of_schema? tracked).trans kept
    have laidOut : ∀ row ∈ rows, row.names = schema.names := by simpa [names] using aligned
    refine ⟨⟨schema, rows, laidOut⟩, ?_, names, rfl⟩
    simp [toTable, run.collect, tracked, Table.ofRows_ok laidOut]

end Pipeline

end Medals
