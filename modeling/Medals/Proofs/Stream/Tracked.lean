import Medals.Proofs.Csv.Limit
import Medals.Proofs.Stream.Validation
import Medals.Proofs.Table.Soundness

/-!
# The schema that a reader tracks

A reader of text takes every cell that it yields into account, and parses the cells of a column of a
declared kind as that kind. So the schema that it tracks is sound for all rows that it has yielded,
whatever the schema was when they were yielded, and the table of a source is well formed whether its
schema is tracked or inferred (`Pipeline.wellFormed_of_toTable`).
-/

namespace Medals

namespace SourceColumn

/-- The cell has been taken into account, and is of the declared kind if there is one. -/
structure Records (source : SourceColumn) (cell : Cell) : Prop where
  seen : source.seen.Covers cell
  declared : ∀ kind, source.declared? = some kind → ∀ own, cell.kind? = some own → own = kind

theorem Records.allows {source : SourceColumn} {cell : Cell} (records : source.Records cell) :
    source.column.Allows cell := by
  have observed := records.seen.allows source.name
  cases declared : source.declared? with
  | none => simpa [column, declared] using observed
  | some kind =>
    cases own : cell.kind? with
    | none => simpa [Column.Allows, own, column, Observation.column] using observed
    | some same =>
      obtain rfl := records.declared kind declared same own
      simp [Column.Allows, own, column, declared, CellKind.widen_self]

/-- Further cells do not undo what has been recorded. -/
theorem Records.observe {source : SourceColumn} {cell : Cell} (records : source.Records cell)
    (other : Cell) :
    Records { source with seen := source.seen.observe other } cell :=
  ⟨records.seen.observe other, records.declared⟩

end SourceColumn

theorem Cell.kind?_parseAs (raw : String) (kind own : CellKind)
    (parsed : (Cell.parseAs raw kind).kind? = some own) : own = kind := by
  unfold Cell.parseAs at parsed
  cases kind with
  | text => simpa [Cell.kind?, eq_comm] using parsed
  | integer =>
    dsimp only at parsed
    split at parsed
    · simpa [Cell.kind?, eq_comm] using parsed
    · split at parsed
      · simpa [Cell.kind?, eq_comm] using parsed
      · simp [Cell.kind?] at parsed
  | number =>
    dsimp only at parsed
    split at parsed
    · simpa [Cell.kind?, eq_comm] using parsed
    · simp [Cell.kind?] at parsed

namespace RowReader

/-- The columns have recorded the cells of the row. -/
def Records (reader : RowReader) (row : Row) : Prop :=
  List.Forall₂ SourceColumn.Records reader.columns row.cells

theorem Records.sound {reader : RowReader} {row : Row} (records : reader.Records row) :
    reader.schema.Sound row := by
  refine List.forall₂_map_left_iff.mpr (records.imp ?_)
  exact fun source cell recorded => recorded.allows

theorem kind?_parseCell {nullTokens : List String} {raw : String} {kind own : CellKind}
    (parsed : (parseCell nullTokens (some kind) raw).kind? = some own) : own = kind := by
  unfold parseCell at parsed
  dsimp only at parsed
  split at parsed
  · simp [Cell.kind?] at parsed
  · exact Cell.kind?_parseAs raw kind own parsed

/-- A row that is yielded is that of a record. -/
theorem rowOf_of_next {reader : RowReader} {row : Row}
    (yielded : reader.next.1 = .ok (some row)) : ∃ record, row = reader.rowOf record := by
  fun_induction RowReader.next reader with
  | case1 => simp at yielded
  | case2 => simp at yielded
  | case3 => simp at yielded
  | case4 reader _ _ record => exact ⟨record, (Option.some.inj (Except.ok.inj yielded)).symm⟩
  | case5 reader _ _ _ _ _ _ _ _ _ _ ih =>
    obtain ⟨record, same⟩ := ih yielded
    exact ⟨record, same⟩
  | case6 => simp at yielded
  | case7 reader _ _ record => exact ⟨record, (Option.some.inj (Except.ok.inj yielded)).symm⟩

/-- The columns after a row have recorded what they had recorded before. -/
theorem records_columnsAfter {columns : List SourceColumn} {cells : List Cell} {row : Row}
    (records : List.Forall₂ SourceColumn.Records columns cells)
    (width : row.cells.length = columns.length) :
    List.Forall₂ SourceColumn.Records (columnsAfter columns (.ok (some row))) cells := by
  obtain ⟨sameLength, recorded⟩ := List.forall₂_iff_get.mp records
  refine List.forall₂_iff_get.mpr ⟨by simp [columnsAfter, width, sameLength], ?_⟩
  intro index here there
  have inside : index < columns.length := sameLength ▸ there
  have wide : index < row.cells.length := width ▸ inside
  simpa [columnsAfter] using (recorded index inside there).observe row.cells[index]

/-- The columns after a row of the reader have recorded its cells. -/
theorem records_rowOf (reader : RowReader) (record : Csv.Record) :
    List.Forall₂ SourceColumn.Records
      (columnsAfter reader.columns (.ok (some (reader.rowOf record)))) (reader.rowOf record).cells := by
  refine List.forall₂_iff_get.mpr ⟨by simp [columnsAfter, rowOf], fun index here there => ?_⟩
  simp only [columnsAfter, List.get_eq_getElem, List.getElem_zipWith]
  refine ⟨Observation.covers_observe _ _, fun kind declared own parsed => ?_⟩
  simp only [rowOf, List.getElem_map, List.getElem_zipIdx] at parsed declared
  rw [declared] at parsed
  exact kind?_parseCell parsed

/-- A pull keeps what is recorded, and records the row that it yields. -/
theorem records_next (reader : RowReader) :
    (∀ row, reader.Records row → reader.next.2.Records row) ∧
      ∀ row, reader.next.1 = .ok (some row) → reader.next.2.Records row := by
  unfold Records
  rw [columns_next]
  constructor
  · intro row records
    match answer : reader.next.1 with
    | .error fault => exact records
    | .ok none => exact records
    | .ok (some yielded) =>
      obtain ⟨record, rfl⟩ := rowOf_of_next answer
      exact records_columnsAfter records (by simp [rowOf])
  · intro row yielded
    obtain ⟨record, rfl⟩ := rowOf_of_next yielded
    rw [yielded]
    exact reader.records_rowOf record

end RowReader

namespace Origin

/-- A reader has recorded the cells of the row; rows in memory are not recorded. -/
def Records (origin : Origin) (row : Row) : Prop :=
  match origin with
  | memory _ _ => True
  | text reader => reader.Records row

theorem records_next (origin : Origin) :
    (∀ row, origin.Records row → origin.next.2.Records row) ∧
      ∀ row, origin.next.1 = .ok (some row) → origin.next.2.Records row := by
  match origin with
  | .memory layout [] => simp [next, Records]
  | .memory layout (first :: rest) =>
    rw [next]
    split <;> simp [Records]
  | .text reader => exact reader.records_next

theorem Records.sound {origin : Origin} {row : Row} {schema : Schema} (records : origin.Records row)
    (tracked : origin.schema? = some schema) : schema.Sound row := by
  cases origin with
  | memory => simp [schema?] at tracked
  | text reader =>
    obtain rfl : reader.schema = schema := by simpa [schema?] using tracked
    exact RowReader.Records.sound records

end Origin

namespace Pipeline

variable {pipeline after : Pipeline} {rows : List Row} {fault? : Option Fault}

/-- Without stages a pull is a pull from the origin. -/
theorem next_of_bare (bare : pipeline.stages = []) :
    pipeline.next = (pipeline.origin.next.1, ⟨pipeline.origin.next.2, []⟩) := by
  obtain ⟨origin, stages⟩ := pipeline
  obtain rfl : stages = [] := bare
  cases found : origin.next with
  | mk answer left =>
    match answer with
    | .error fault => exact next_of_fault ⟨origin, []⟩ found
    | .ok none => exact next_of_end ⟨origin, []⟩ found
    | .ok (some row) => simp [next_of_row ⟨origin, []⟩ found, Stage.offerAll]

/-- Draining leaves as many stages as there were. -/
theorem stages_of_drains (drains : Drains next pipeline rows fault? after) :
    after.stages.length = pipeline.stages.length := by
  have kept : ∀ pipeline : Pipeline,
      pipeline.next.2.stages.length = pipeline.stages.length := fun pipeline => by
    simpa using congrArg List.length (map_uncounted_next pipeline)
  induction drains with
  | @ended source _ found => simpa [found] using kept source
  | @failed source _ _ found => simpa [found] using kept source
  | @pulled source _ _ _ _ _ found _ ih => exact ih.trans (by simpa [found] using kept source)

/-- Without stages all rows that were pulled are recorded. -/
theorem records_of_drains (drains : Drains next pipeline rows fault? after)
    (bare : pipeline.stages = []) :
    (∀ row, pipeline.origin.Records row → after.origin.Records row) ∧
      ∀ row ∈ rows, after.origin.Records row := by
  induction drains with
  | @ended source _ found =>
    rw [next_of_bare bare] at found
    obtain ⟨-, rfl⟩ := Prod.mk.inj found
    exact ⟨source.origin.records_next.1, by simp⟩
  | @failed source _ _ found =>
    rw [next_of_bare bare] at found
    obtain ⟨-, rfl⟩ := Prod.mk.inj found
    exact ⟨source.origin.records_next.1, by simp⟩
  | @pulled source _ _ row _ _ found _ ih =>
    rw [next_of_bare bare] at found
    obtain ⟨yielded, rfl⟩ := Prod.mk.inj found
    obtain ⟨kept, recorded⟩ := ih rfl
    refine ⟨fun other held => kept other (source.origin.records_next.1 other held), ?_⟩
    exact List.forall_mem_cons.mpr ⟨kept row (source.origin.records_next.2 row yielded), recorded⟩

/-- The table of a source is well formed. -/
theorem wellFormed_of_toTable {table : Table} (made : pipeline.toTable.1 = .ok table) :
    table.WellFormed := by
  unfold toTable at made
  cases collected : pipeline.collect with
  | mk result after =>
    rw [collected] at made
    cases result with
    | error => simp at made
    | ok rows =>
      have drains := runs_iff_drains.mp (collect_eq_ok_iff.mp collected)
      cases tracked : after.schema? with
      | none =>
        simp only [tracked] at made
        exact Table.wellFormed_of_inferred made
      | some schema =>
        simp only [tracked] at made
        obtain ⟨same, rfl⟩ := Table.ofRows_eq_ok_iff.mp made
        unfold schema? at tracked
        split at tracked
        · next bare =>
          have noStages : pipeline.stages = [] := by
            have left := stages_of_drains drains
            rw [List.isEmpty_iff.mp bare] at left
            exact List.eq_nil_of_length_eq_zero left.symm
          refine Table.wellFormed_of_sound fun row member => ?_
          rw [same]
          exact ((records_of_drains drains noStages).2 row member).sound tracked
        · simp at tracked

end Pipeline

end Medals
