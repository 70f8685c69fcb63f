import Medals.Proofs.Stream.Tracked

/-!
# The tracked schema and the inferred one

A reader widens the kinds of its columns cell by cell while it reads. `RowReader.schema_pulled` says
that after any number of pulls its schema is the one that would be inferred from the rows yielded so
far, all at once, with declared kinds in place of inferred ones.
-/

namespace Medals

/-- The schema with the kinds that the options declare in place of its own. -/
def Schema.declaring (schema : Schema) (options : ReadOptions) : Schema :=
  ⟨schema.columns.map fun column =>
    { column with kind := (options.declaredKind? column.name).getD column.kind }⟩

namespace RowReader

/-- The rows that some pulls yield. -/
def yielded (reader : RowReader) : Nat → List Row
  | 0 => []
  | pulls + 1 =>
    match reader.next.1 with
    | .ok (some row) => row :: reader.next.2.yielded pulls
    | _ => reader.next.2.yielded pulls

theorem exists_of_mem_yielded {reader : RowReader} {pulls : Nat} {row : Row}
    (member : row ∈ reader.yielded pulls) :
    ∃ earlier, (reader.pulled earlier).next.1 = .ok (some row) := by
  induction pulls generalizing reader with
  | zero => simp [yielded] at member
  | succ pulls ih =>
    rw [yielded] at member
    split at member
    · next first answer =>
      rcases List.mem_cons.mp member with rfl | later
      · exact ⟨0, answer⟩
      · obtain ⟨earlier, found⟩ := ih later
        exact ⟨earlier + 1, found⟩
    · obtain ⟨earlier, found⟩ := ih member
      exact ⟨earlier + 1, found⟩

/-- The rows that some pulls yield are those among as many answers. -/
theorem yielded_eq_of_answers {reader : RowReader} {answers : List (Except Fault Row)}
    (given : ∀ pulls, (reader.pulled pulls).next.1 = pullOf answers[pulls]?) (pulls : Nat) :
    reader.yielded pulls = (answers.take pulls).filterMap Except.toOption := by
  induction pulls generalizing reader answers with
  | zero => rfl
  | succ pulls ih =>
    have first : reader.next.1 = pullOf answers[0]? := given 0
    rw [yielded, first]
    cases answers with
    | nil => simpa [pullOf] using @ih reader.next.2 [] fun later => given (later + 1)
    | cons answer rest =>
      have others := @ih reader.next.2 rest fun later => given (later + 1)
      cases answer with
      | ok row => simpa [pullOf, Except.toOption] using others
      | error fault =>
        rw [List.take_succ_cons, List.filterMap_cons_none rfl]
        exact others

/-- The columns after the cells of some rows have been taken into account. -/
def columnsAfterRows (columns : List SourceColumn) (rows : List Row) : List SourceColumn :=
  columns.mapIdx fun index column =>
    { column with
      seen := (Schema.columnCells rows index).foldl Observation.observe column.seen }

theorem columnsAfterRows_nil (columns : List SourceColumn) :
    columnsAfterRows columns [] = columns :=
  List.ext_getElem (by simp [columnsAfterRows]) fun index _ _ => by
    simp [columnsAfterRows, Schema.columnCells]

theorem columnsAfterRows_cons {columns : List SourceColumn} {row : Row} (rows : List Row)
    (width : row.cells.length = columns.length) :
    columnsAfterRows columns (row :: rows) =
      columnsAfterRows (columnsAfter columns (.ok (some row))) rows := by
  refine List.ext_getElem (by simp [columnsAfterRows, columnsAfter, width]) fun index here _ => ?_
  have inside : index < row.cells.length := by simpa [columnsAfterRows, width] using here
  simp [columnsAfterRows, columnsAfter, Schema.columnCells, inside]

/-- Pulls take the cells of the rows they yield into account, and nothing else. The width of a
yielded row is that of the columns, so that no cell of it is left out. -/
theorem columns_after_pulls (reader : RowReader) (pulls : Nat) :
    (reader.pulled pulls).columns = columnsAfterRows reader.columns (reader.yielded pulls) := by
  induction pulls generalizing reader with
  | zero => exact (columnsAfterRows_nil reader.columns).symm
  | succ pulls ih =>
    rw [pulled, ih, columns_next, yielded]
    split
    · next row answer =>
      obtain ⟨record, rfl⟩ := rowOf_of_next answer
      rw [answer, columnsAfterRows_cons _ (by simp [rowOf])]
    · next noRow =>
      have kept : columnsAfter reader.columns reader.next.1 = reader.columns := by
        unfold columnsAfter
        split
        · next row answer => exact absurd answer (noRow row)
        · rfl
      rw [kept]

/-- What columns that had seen nothing show after some rows is inferred from these rows. -/
theorem schema_of_columnsAfterRows {reader : RowReader} {options : ReadOptions}
    {names : List String} {rows : List Row}
    (columns : reader.columns = columnsAfterRows
      (names.map fun name => ⟨name, options.declaredKind? name, Observation.none⟩) rows) :
    reader.schema = (Schema.infer names rows).declaring options := by
  rw [schema, columns, Schema.declaring, Schema.infer, Schema.mk.injEq]
  refine List.ext_getElem (by simp [columnsAfterRows]) fun index _ _ => ?_
  simp [columnsAfterRows, SourceColumn.column, Column.infer_eq_observed, Observation.column]

end RowReader

/-- A cell under a declared name is of the declared kind unless it is missing. -/
theorem ReadOptions.kind?_rowOf {options : ReadOptions} {names : List String}
    {record : Csv.Record} {index : Nat} {name : String} {kind own : CellKind}
    (named : names[index]? = some name) (declared : options.declaredKind? name = some kind)
    (present : ((options.rowOf names record).cellAt index).kind? = some own) : own = kind := by
  rw [Row.cellAt, rowOf, List.getD_eq_getElem?_getD, List.getElem?_mapIdx, named, Option.map_some,
    Option.getD_some] at present
  cases found : record[index]? with
  | none => simp [found, cellOf, Cell.kind?] at present
  | some field =>
    rw [found, cellOf, declared] at present
    exact RowReader.kind?_parseCell present

namespace RowReader

/-- A reader that has been opened has seen no cell of any column. -/
theorem columns_of_openData {data : List UInt8} {source : String} {options : ReadOptions}
    {reader : RowReader} (opened : openData data source options = .ok reader) :
    reader.columns =
      reader.names.map fun name => ⟨name, options.declaredKind? name, Observation.none⟩ := by
  obtain ⟨-, header, -, -, -, -, rfl⟩ := exists_of_openData opened
  simp [RowReader.names, Function.comp_def]

/-- After any number of pulls the schema is the one inferred from the rows yielded so far, but for
declared kinds, and a column of a declared kind has yielded no cells of another. These rows are those
among as many answers to the records, so that a record which is left out or fails has no part in the
schema. -/
theorem schema_pulled {data : List UInt8} {source : String} {options : ReadOptions}
    {reader : RowReader} (opened : openData data source options = .ok reader) (pulls : Nat) :
    (reader.pulled pulls).schema =
        (Schema.infer reader.names (reader.yielded pulls)).declaring options ∧
      (∀ row ∈ reader.yielded pulls, ∀ index name kind own, reader.names[index]? = some name →
        options.declaredKind? name = some kind → (row.cellAt index).kind? = some own →
        own = kind) ∧
      ∃ header records, Csv.recordsOf options.delimiter options.bufferCapacity data =
          (1, header) :: records ∧
        reader.yielded pulls =
          ((options.answers reader.names records).take pulls).filterMap Except.toOption := by
  obtain ⟨header, records, read, -, -, answers, rows, -⟩ := pulls_eq_answers opened
  refine ⟨?_, ?_, header, records, read, yielded_eq_of_answers answers pulls⟩
  · have columns := reader.columns_after_pulls pulls
    rw [columns_of_openData opened] at columns
    exact schema_of_columnsAfterRows columns
  · intro row member index name kind own named declared present
    obtain ⟨earlier, yields⟩ := exists_of_mem_yielded member
    obtain ⟨-, entry, -, rfl⟩ := rows earlier row yields
    exact ReadOptions.kind?_rowOf named declared present

/-- Of the three records behind this header the second is too short and is left out. The third has
no integer where one is declared, a word where the first had an integer, and a number where it had
another. -/
theorem schema_pulled_of_two_rows :
    ∃ reader, openData [97, 44, 98, 44, 99, 10, 49, 44, 50, 44, 51, 10, 51, 10, 120, 44, 121, 44,
        50, 46, 53, 10] "inline" ⟨44, none, .skip, [], [("b", .integer)], 16⟩ = .ok reader ∧
      (Schema.infer reader.names (reader.yielded 2)).declaring
          ⟨44, none, .skip, [], [("b", .integer)], 16⟩ =
        ⟨[⟨"a", .text, false⟩, ⟨"b", .integer, true⟩, ⟨"c", .number, false⟩]⟩ := by
  have tracked : (openData [97, 44, 98, 44, 99, 10, 49, 44, 50, 44, 51, 10, 51, 10, 120, 44, 121,
      44, 50, 46, 53, 10] "inline" ⟨44, none, .skip, [], [("b", .integer)], 16⟩).map
        (fun reader => (reader.pulled 2).schema) =
      .ok ⟨[⟨"a", .text, false⟩, ⟨"b", .integer, true⟩, ⟨"c", .number, false⟩]⟩ := by
    decide +kernel
  cases opened : openData [97, 44, 98, 44, 99, 10, 49, 44, 50, 44, 51, 10, 51, 10, 120, 44, 121, 44,
      50, 46, 53, 10] "inline" ⟨44, none, .skip, [], [("b", .integer)], 16⟩ with
  | error fault => simp [opened, Except.map] at tracked
  | ok reader =>
    rw [opened, Except.map, Except.ok.injEq] at tracked
    exact ⟨reader, rfl, (schema_pulled opened 2).1.symm.trans tracked⟩

end RowReader

end Medals
