import Medals.Proofs.Stream.Page
import Medals.Proofs.Table.Refusals

/-!
# Validation before reading

Pages, sorted pages and groupings resolve the columns that they are asked for before they pull a row.
`Pipeline.validates` says for each of them that it is refused with its first offender and leaves the
source as it was, or drains the source and fails only with a fault of the origin underneath. The
positions that it resolved, and those of the stages below, lie inside every row that they meet, so
that reading a row by position never falls back on a missing cell.
-/

namespace Medals

namespace Stage

/-- The positions that a stage reads cells at. -/
def positions (stage : Stage) : List Nat :=
  stage.filter.tests.map Prod.fst ++ Projection.optionalPositions stage.projection

/-- The stage as it was laid, before it looked at any row. -/
def uncounted (stage : Stage) : Stage :=
  { stage with scanned := 0, matched := 0 }

@[simp] theorem uncounted_counted (stage : Stage) (rows : List Row) :
    (stage.counted rows).uncounted = stage.uncounted := rfl

theorem map_uncounted_offerAll (stages : List Stage) (row : Row) :
    (offerAll stages row).2.map uncounted = stages.map uncounted := by
  induction stages generalizing row with
  | nil => rfl
  | cons stage above ih =>
    rw [offerAll, offer_eq]
    cases stage.filter.accepts row with
    | false => rfl
    | true => simpa using ih (Projection.applyOptional stage.projection row)

/-- A stage of a layout is refused for the first of its columns that the layout lacks, those of the
filter first. -/
theorem fault?_bind (layout : List String) (filter : Filter) (columns : Option (List String)) :
    fault? (bind layout filter columns) =
      missingColumn? layout (filter.columns ++ columns.getD []) := by
  rw [missingColumn?_append, ← Filter.fault?_bind, ← Projection.fault?_bindOptional]
  refine Medals.fault?_bind fun bound => ?_
  refine (Medals.fault?_bind fun projection => ?_).trans (Option.or_none ..)
  rfl

theorem lt_length_of_bind {layout : List String} {filter : Filter}
    {columns : Option (List String)} {stage : Stage}
    (bound : bind layout filter columns = .ok stage) :
    ∀ index ∈ stage.positions, index < layout.length := by
  obtain ⟨tests, projection, filtered, projected, rfl⟩ := bind_eq_ok_iff.mp bound
  intro index member
  rcases List.mem_append.mp member with tested | chosen
  · exact (Filter.resolves_of_bind filtered).lt_length index tested
  · exact Projection.lt_length_of_bindOptional projected index chosen

/-- Every stage reads cells inside the layout of the rows below it. -/
def Within : List String → List Stage → Prop
  | _, [] => True
  | layout, stage :: above =>
    (∀ index ∈ stage.positions, index < layout.length) ∧ Within stage.names above

theorem Within.append {layout : List String} {stages : List Stage} {top : Stage}
    (within : Within layout stages)
    (onTop : ∀ index ∈ top.positions, index < (topNames layout stages).length) :
    Within layout (stages ++ [top]) := by
  induction stages generalizing layout with
  | nil => exact ⟨onTop, trivial⟩
  | cons stage above ih =>
    rw [topNames_cons] at onTop
    exact ⟨within.1, ih within.2 onTop⟩

/-- Counting makes no difference to where stages read. -/
theorem within_map_uncounted {layout : List String} {stages : List Stage} :
    Within layout (stages.map uncounted) ↔ Within layout stages := by
  induction stages generalizing layout with
  | nil => rfl
  | cons stage above ih => exact and_congr Iff.rfl ih

/-- A row sent up through stages is read by each of them at positions that it has. -/
def ReadsInside : List Stage → Row → Prop
  | [], _ => True
  | stage :: above, row =>
    (∀ index ∈ stage.positions, index < row.cells.length) ∧
      (stage.filter.accepts row = true →
        ReadsInside above (Projection.applyOptional stage.projection row))

theorem Within.readsInside {layout : List String} {stages : List Stage} {row : Row}
    (within : Within layout stages) (laid : Laid layout stages) (aligned : row.names = layout) :
    ReadsInside stages row := by
  induction stages generalizing layout row with
  | nil => trivial
  | cons stage above ih =>
    refine ⟨fun index member => ?_, fun _ => ?_⟩
    · rw [row.width, aligned]
      exact within.1 index member
    · exact ih within.2 laid.2 ((names_applyOptional aligned).trans laid.1.symm)

end Stage

namespace Pipeline

theorem map_uncounted_next (pipeline : Pipeline) :
    pipeline.next.2.stages.map Stage.uncounted = pipeline.stages.map Stage.uncounted := by
  fun_induction Pipeline.next pipeline with
  | case1 => rfl
  | case2 => rfl
  | case3 pipeline row origin found passed stages offered =>
    have kept := Stage.map_uncounted_offerAll pipeline.stages row
    rwa [offered] at kept
  | case4 pipeline row origin found stages offered ih =>
    have kept := Stage.map_uncounted_offerAll pipeline.stages row
    rw [offered] at kept
    exact ih.trans kept

theorem names_next (pipeline : Pipeline) : pipeline.next.2.origin.names = pipeline.origin.names := by
  fun_induction Pipeline.next pipeline with
  | case1 pipeline fault origin found => simpa [found] using pipeline.origin.names_next.1
  | case2 pipeline origin found => simpa [found] using pipeline.origin.names_next.1
  | case3 pipeline row origin found => simpa [found] using pipeline.origin.names_next.1
  | case4 pipeline row origin found stages offered ih =>
    exact ih.trans (by simpa [found] using pipeline.origin.names_next.1)

/-- The stages of an assembled pipeline read inside the rows below them. -/
theorem Assembled.within {pipeline : Pipeline} (assembled : Assembled pipeline) :
    Stage.Within pipeline.origin.names pipeline.stages := by
  induction assembled with
  | origin => trivial
  | stage _ laid ih =>
    obtain ⟨stage, bound, rfl⟩ := addStage_eq_ok_iff.mp laid
    exact ih.append (Stage.lt_length_of_bind bound)
  | @pull pipeline _ ih =>
    rw [names_next, ← Stage.within_map_uncounted, map_uncounted_next,
      Stage.within_map_uncounted]
    exact ih

/-- Draining an origin drains every pipeline over it, and ends in the same way. -/
theorem drains_of_origin {origin last : Origin} {pulled : List Row} {fault? : Option Fault}
    (drains : Drains Origin.next origin pulled fault? last) (stages : List Stage) :
    ∃ rows above, Drains next ⟨origin, stages⟩ rows fault? ⟨last, above⟩ := by
  induction drains generalizing stages with
  | ended found => exact ⟨[], stages, .ended (next_of_end ⟨_, stages⟩ found)⟩
  | failed found => exact ⟨[], stages, .failed (next_of_fault ⟨_, stages⟩ found)⟩
  | @pulled origin middle last row _ _ found _ ih =>
    have next := next_of_row ⟨origin, stages⟩ found
    cases offered : Stage.offerAll stages row with
    | mk passed above =>
      obtain ⟨rows, top, rest⟩ := ih above
      cases passed with
      | none => exact ⟨rows, top, rest.of_next_eq (by simpa [offered] using next)⟩
      | some shown => exact ⟨shown :: rows, top, .pulled (by simpa [offered] using next) rest⟩

/-- The rows that come from an origin have its layout. -/
theorem aligned_of_origin {origin last : Origin} {pulled : List Row} {fault? : Option Fault}
    (drains : Drains Origin.next origin pulled fault? last) :
    ∀ row ∈ pulled, row.names = origin.names := by
  induction drains with
  | ended => simp
  | failed => simp
  | @pulled origin middle last first _ _ found _ ih =>
    obtain ⟨kept, aligned⟩ := origin.names_next
    rw [found] at kept aligned
    refine List.forall_mem_cons.mpr ⟨aligned first rfl, fun row member => ?_⟩
    exact (ih row member).trans kept

/-- The source has been read to its end or to its first fault. The rows of the origin have its
layout and are read inside by all stages; the rows on top have the layout of the source and are as
wide as the positions ask for. A fault is one that the origin returns. -/
structure ReadThrough (pipeline : Pipeline) (positions : List Nat) (fault? : Option Fault)
    (after : Pipeline) : Prop where
  underneath : ∃ pulled, Drains Origin.next pipeline.origin pulled fault? after.origin ∧
    ∀ row ∈ pulled, row.names = pipeline.origin.names ∧ Stage.ReadsInside pipeline.stages row
  onTop : ∃ rows, Drains next pipeline rows fault? after ∧
    ∀ row ∈ rows, row.names = pipeline.names ∧ ∀ index ∈ positions, index < row.cells.length

/-- Every assembled source can be read through, whatever is asked of its layout. -/
theorem Assembled.exists_readThrough {pipeline : Pipeline} (assembled : Assembled pipeline) :
    ∃ rows fault? after, Drains next pipeline rows fault? after ∧
      (∀ row ∈ rows, row.names = pipeline.names) ∧
      ∀ positions : List Nat, (∀ index ∈ positions, index < pipeline.names.length) →
        pipeline.ReadThrough positions fault? after := by
  obtain ⟨pulled, fault?, last, drained⟩ :=
    exists_drains Origin.remaining Origin.next_remaining_lt pipeline.origin
  obtain ⟨rows, above, drains⟩ := drains_of_origin drained pipeline.stages
  have aligned := (aligned_of_drains drains assembled.laid).2
  refine ⟨rows, fault?, ⟨last, above⟩, drains, aligned, fun positions inside => ?_⟩
  refine ⟨⟨pulled, drained, fun row member => ?_⟩, ⟨rows, drains, fun row member => ?_⟩⟩
  · have laidOut := aligned_of_origin drained row member
    exact ⟨laidOut, assembled.within.readsInside assembled.laid laidOut⟩
  · refine ⟨aligned row member, fun index listed => ?_⟩
    rw [row.width, aligned row member]
    exact inside index listed

/-- A call is refused before anything is read, or resolves its columns to positions and reads the
source through, and fails only as that does. -/
structure Validates {α : Type} (pipeline : Pipeline) (refusal? : Option Fault)
    (resolved : Except Fault (List Nat)) (outcome : Except Fault α × Pipeline) : Prop where
  refused : ∀ fault, refusal? = some fault → outcome = (.error fault, pipeline)
  accepted : refusal? = none → ∃ positions fault?, resolved = .ok positions ∧
    pipeline.ReadThrough positions fault? outcome.2 ∧
    ∀ fault, outcome.1 = .error fault ↔ fault? = some fault

/-- What succeeds was not refused. -/
theorem Validates.refusal?_eq_none {α : Type} {pipeline : Pipeline} {refusal? : Option Fault}
    {resolved : Except Fault (List Nat)} {outcome : Except Fault α × Pipeline} {value : α}
    (validates : pipeline.Validates refusal? resolved outcome) (made : outcome.1 = .ok value) :
    refusal? = none := by
  cases refused : refusal? with
  | none => rfl
  | some fault =>
    rw [validates.refused fault refused] at made
    cases made

section Matches

variable {α : Type} {pipeline : Pipeline} {filter : Filter} {columns : Option (List String)}

/-- A refused filter or projection leaves the source alone. -/
theorem foldMatches_of_refused {fault : Fault}
    (refused : missingColumn? pipeline.names (filter.columns ++ columns.getD []) = some fault)
    (step : Option Projection → α → Row → α) (state : α) :
    pipeline.foldMatches filter columns step state = (.error fault, pipeline) := by
  rw [missingColumn?_append, ← Filter.fault?_bind, ← Projection.fault?_bindOptional] at refused
  unfold foldMatches
  cases binds : filter.bind pipeline.names with
  | error cause =>
    obtain rfl : cause = fault := by simpa [binds, fault?] using refused
    simp [addStage, Stage.bind, binds, Bind.bind, Except.bind]
  | ok bound =>
    rw [addStage_unprojected binds]
    cases projects : Projection.bindOptional pipeline.names columns with
    | error cause =>
      obtain rfl : cause = fault := by simpa [binds, projects, fault?] using refused
      rfl
    | ok projection => simp [binds, projects, fault?] at refused

theorem foldMatches_of_accepted (assembled : Assembled pipeline)
    (accepted : missingColumn? pipeline.names (filter.columns ++ columns.getD []) = none)
    (step : Option Projection → α → Row → α) (state : α) :
    ∃ stage fault? after matched, Stage.bind pipeline.names filter columns = .ok stage ∧
      (∀ positions : List Nat, (∀ index ∈ positions, index < pipeline.names.length) →
        pipeline.ReadThrough (positions ++ stage.positions) fault? after) ∧
      pipeline.foldMatches filter columns step state =
        (fault?.elim (.ok matched) .error, after) := by
  obtain ⟨stage, bound⟩ := fault?_eq_none_iff.mp ((Stage.fault?_bind _ filter columns).trans accepted)
  obtain ⟨tests, projection, binds, projects, rfl⟩ := Stage.bind_eq_ok_iff.mp bound
  obtain ⟨rows, fault?, after, drains, -, reads⟩ := assembled.exists_readThrough
  refine ⟨_, fault?, after, _, bound, fun positions inside => reads _ fun index member => ?_,
    foldMatches_of_drains drains binds projects step state⟩
  rcases List.mem_append.mp member with asked | staged
  · exact inside index asked
  · exact Stage.lt_length_of_bind bound index staged

theorem validates_page (assembled : Assembled pipeline) (window : Window) :
    pipeline.Validates (missingColumn? pipeline.names (filter.columns ++ columns.getD []))
      ((Stage.bind pipeline.names filter columns).map Stage.positions)
      (pipeline.page filter columns window) where
  refused fault missing := by
    rw [Pipeline.page, foldMatches_of_refused missing]
  accepted held := by
    obtain ⟨stage, fault?, after, ⟨state, shown, counts⟩, bound, reads, folded⟩ :=
      foldMatches_of_accepted assembled held (PageState.add window) ⟨[], 0⟩
    rw [Pipeline.page, folded, bound]
    refine ⟨stage.positions, fault?, rfl, ?_, ?_⟩
    · cases fault? <;> exact reads [] (by simp)
    · cases fault? <;> simp [eq_comm]

theorem validates_sortedPage (assembled : Assembled pipeline) (key : SortKey) (window : Window) :
    pipeline.Validates
      (missingColumn? pipeline.names (key.column :: (filter.columns ++ columns.getD [])))
      ((requirePosition pipeline.names key.column).bind fun index =>
        (Stage.bind pipeline.names filter columns).map fun stage => index :: stage.positions)
      (pipeline.sortedPage filter columns key window) where
  refused fault missing := by
    rw [missingColumn?_cons, ← fault?_requirePosition] at missing
    unfold Pipeline.sortedPage
    cases found : requirePosition pipeline.names key.column with
    | error cause =>
      obtain rfl : cause = fault := by simpa [found, fault?] using missing
      rfl
    | ok index =>
      have others : missingColumn? pipeline.names (filter.columns ++ columns.getD []) =
          some fault := by
        simpa [found, fault?] using missing
      simp only [foldMatches_of_refused others]
  accepted held := by
    obtain ⟨listed, others⟩ := Option.or_eq_none_iff.mp (missingColumn?_cons ▸ held)
    obtain ⟨index, found⟩ := fault?_eq_none_iff.mp (fault?_requirePosition.trans listed)
    obtain ⟨stage, fault?, after, ⟨ranking, shown, counts⟩, bound, reads, folded⟩ :=
      foldMatches_of_accepted assembled others (fun projection (ranking : Ranking Row) row =>
        ranking.push (row.cellAt index) (Projection.applyOptional projection row))
        (Ranking.start window.stop key.descending)
    have inside : ∀ position ∈ [index], position < pipeline.names.length :=
      Resolves.lt_length (.cons (requirePosition_eq_ok_iff.mp found) .nil)
    simp only [Pipeline.sortedPage, found, folded, bound]
    refine ⟨index :: stage.positions, fault?, rfl, ?_, ?_⟩
    · cases fault? <;> exact reads [index] inside
    · cases fault? <;> simp [eq_comm]

end Matches

theorem validates_groupBy {pipeline : Pipeline} (assembled : Assembled pipeline)
    (grouping : Grouping) :
    pipeline.Validates (grouping.refusal? pipeline.names)
      ((Groups.bind grouping pipeline.names).map Groups.positions) (pipeline.groupBy grouping) where
  refused fault refused := by
    rw [← Groups.fault?_bind] at refused
    rw [Pipeline.groupBy, fault?_eq_some_iff.mp refused]
  accepted served := by
    obtain ⟨groups, bound⟩ := fault?_eq_none_iff.mp ((Groups.fault?_bind grouping).trans served)
    obtain ⟨rows, fault?, after, drains, aligned, reads⟩ := assembled.exists_readThrough
    obtain ⟨result, made, -⟩ := Groups.foldl_add_table bound aligned
    have folded := fold_of_drains drains Groups.add groups
    simp only [Pipeline.groupBy, bound, folded]
    refine ⟨groups.positions, fault?, rfl, ?_, ?_⟩
    · cases fault? <;> exact reads _ (Groups.lt_length_of_bind bound)
    · cases fault? <;> simp [made, eq_comm]

/-- Pages, sorted pages and groupings of every assembled source are refused with their first offender
and then leave the source as it was: a column of the sort key, the conditions or the projection, in
this order, that the source lacks; or a key, then an aggregation, then a name of the result that
comes again. Whatever is not refused reads the source through, at positions inside its rows, and
fails exactly if the origin underneath returns a fault, with that fault. -/
theorem validates {pipeline : Pipeline} (assembled : Assembled pipeline) (filter : Filter)
    (columns : Option (List String)) (window : Window) (key : SortKey) (grouping : Grouping) :
    let layout := pipeline.names
    let asked := filter.columns ++ columns.getD []
    pipeline.Validates (missingColumn? layout asked)
      ((Stage.bind layout filter columns).map Stage.positions)
      (pipeline.page filter columns window) ∧
    pipeline.Validates (missingColumn? layout (key.column :: asked))
      ((requirePosition layout key.column).bind fun index =>
        (Stage.bind layout filter columns).map fun stage => index :: stage.positions)
      (pipeline.sortedPage filter columns key window) ∧
    pipeline.Validates (grouping.refusal? layout)
      ((Groups.bind grouping layout).map Groups.positions) (pipeline.groupBy grouping) ∧
    (∀ names, missingColumn? layout names = none ↔ ∀ name ∈ names, name ∈ layout) ∧
    (grouping.refusal? layout = none ↔ (∀ name ∈ grouping.keys, name ∈ layout) ∧
      (∀ aggregation ∈ grouping.aggregations, Groups.Has layout aggregation) ∧
      grouping.outputNames.Nodup) ∧
    ∀ name, RowReader.firstRepeated? [] grouping.outputNames = some name →
      ∃ before after, grouping.outputNames = before ++ name :: after ∧ before.Nodup ∧
        name ∈ before := by
  refine ⟨validates_page assembled window, validates_sortedPage assembled key window,
    validates_groupBy assembled grouping, fun names => missingColumn?_eq_none_iff,
    Grouping.refusal?_eq_none_iff, fun name found => ?_⟩
  obtain ⟨before, after, split, distinct, -, again⟩ := RowReader.firstRepeated?_eq_some found
  exact ⟨before, after, split, distinct, by simpa using again⟩

/-- A page is refused for its filter before its columns, a sorted page for its key before both, and
groups for a column that is made twice. A page that is accepted fails at the row of another layout. -/
theorem validates_of_two_rows :
    let source := ofRows ["Year", "Medal"]
      [⟨["Year", "Medal"], [.integer 2012, .text "Gold"], rfl⟩, ⟨["Year"], [.integer 2016], rfl⟩]
    Assembled source ∧
      source.page ⟨[.present "Sport"]⟩ (some ["City"]) .all =
        (.error (.unknownColumn "Sport"), source) ∧
      source.sortedPage ⟨[.present "Sport"]⟩ (some ["City"]) ⟨"Season", true⟩ .all =
        (.error (.unknownColumn "Season"), source) ∧
      source.groupBy ⟨["Medal"], [.sum "Year", .sum "Year"]⟩ =
        (.error (.columnExists "sum_Year"), source) ∧
      (source.page ⟨[.present "Medal"]⟩ (some ["Year"]) .all).1 =
        .error (.foreignLayout ["Year"] ["Year", "Medal"]) := by
  intro source
  have assembled : Assembled source := .origin _
  obtain ⟨refusedPage, refusedSorted, refusedGroups, -⟩ := validates assembled
    ⟨[.present "Sport"]⟩ (some ["City"]) .all ⟨"Season", true⟩ ⟨["Medal"], [.sum "Year", .sum "Year"]⟩
  obtain ⟨acceptedPage, -⟩ := validates assembled ⟨[.present "Medal"]⟩ (some ["Year"]) .all
    ⟨"Season", true⟩ ⟨["Medal"], [.sum "Year", .sum "Year"]⟩
  refine ⟨assembled, refusedPage.refused _ (by decide), refusedSorted.refused _ (by decide),
    refusedGroups.refused _ (by decide), ?_⟩
  obtain ⟨_, fault?, -, ⟨⟨pulled, drained, -⟩, -⟩, fails⟩ := acceptedPage.accepted (by decide)
  refine (fails _).mpr ?_
  cases drained with
  | ended found => simp [source, ofRows, ofOrigin, Origin.next] at found
  | failed found => simp [source, ofRows, ofOrigin, Origin.next] at found
  | pulled found rest =>
    obtain ⟨-, rfl⟩ : _ ∧ Origin.memory _ _ = _ := Prod.mk.inj found
    cases rest with
    | ended found => simp [Origin.next] at found
    | failed found => simpa [Origin.next, eq_comm] using (Prod.mk.inj found).1
    | pulled found => simp [Origin.next] at found

end Pipeline

end Medals
