import Medals.Proofs.Query.Written

/-!
# Events as records

`Engine.HasEvents` says which records a file of events has. Files with the same header and the same
well-formed records in different orders are read alike, as the same events in different orders
(`Engine.HasEvents.exists_readsEvents`).
-/

namespace Medals

namespace Engine

variable {engine : Engine} {files other : Files}

/-- The events are in a file with a header and records below it. The malformed ones are left out, or
there are none. -/
structure HasEvents (engine : Engine) (files : Files) (header : Csv.Record)
    (records : List Csv.LinedRecord) : Prop where
  file : ∃ path file, engine.settings.path .events = .ok path ∧ files.find path = .file file ∧
    Csv.recordsOf (engine.settings.readOptionsOf .events).delimiter
      (engine.settings.readOptionsOf .events).bufferCapacity file.bytes = (1, header) :: records
  regular : (engine.settings.readOptionsOf .events).malformed = .skip ∨
    ∀ entry ∈ records, ¬ Csv.Malformed header.length entry.2

namespace HasEvents

variable {header : Csv.Record} {records others : List Csv.LinedRecord} {reader : RowReader}

/-- A reader of the events reads the rows of the well-formed records. -/
theorem readsEvents (has : engine.HasEvents files header records)
    (opened : engine.openTable files .events = .ok reader) :
    reader.names = RowReader.headerNames header ∧
      engine.ReadsEvents files reader ((Csv.wellFormedOf header.length records).map
        ((engine.settings.readOptionsOf .events).rowOf (RowReader.headerNames header))) := by
  obtain ⟨path, file, leads, found, read⟩ := has.file
  obtain ⟨_, again, serves, unfinished, -⟩ :=
    RowReader.opened_of_openData ((openTable_of_file leads found).mp opened)
  obtain ⟨⟨-, rfl⟩, rfl⟩ := List.cons.inj (read.symm.trans again)
  have regular := has.regular
  rw [← RowReader.length_headerNames header] at regular ⊢
  refine ⟨serves.names_eq, opened, Pipeline.runs_of_pulls fun pulls => ?_⟩
  exact RowReader.pulls_of_answers serves rfl unfinished
    (RowReader.unlimitedAnswers_of_regular regular) pulls

/-- Where one file is read, a file with the same header and well-formed records is, and the events
are the same up to their order. -/
theorem exists_readsEvents (first : engine.HasEvents files header records)
    (second : engine.HasEvents other header others)
    (reordered : (Csv.wellFormedOf header.length records).Perm
      (Csv.wellFormedOf header.length others))
    {events : List Row} (reads : engine.ReadsEvents files reader events) :
    ∃ mirrored rows, engine.ReadsEvents other mirrored rows ∧ mirrored.names = reader.names ∧
      events.Perm rows := by
  obtain ⟨path, file, leads, found, read⟩ := first.file
  obtain ⟨further, target, leadsToo, foundToo, readToo⟩ := second.file
  obtain ⟨mirrored, opened⟩ := RowReader.exists_openData_of_header
    ((openTable_of_file leads found).mp reads.opened) read readToo further
  obtain ⟨names, own⟩ := first.readsEvents reads.opened
  obtain ⟨same, rest⟩ := second.readsEvents ((openTable_of_file leadsToo foundToo).mpr opened)
  obtain rfl := Except.ok.inj (reads.eventRows_eq.symm.trans own.eventRows_eq)
  exact ⟨mirrored, _, rest, same.trans names.symm, reordered.map _⟩

end HasEvents

/-- What was written has the records of its rows. -/
theorem Holds.hasEvents {columns : List String} {rows : List Row}
    (holds : engine.Holds files .events columns rows) :
    ∃ records, engine.HasEvents files (columns.map Utf8.encode) records ∧
      Csv.wellFormedOf (columns.map Utf8.encode).length records =
        rows.map CsvWriter.fieldsOf := by
  obtain ⟨path, modified, leads, found⟩ := holds.file
  obtain ⟨reader, opened, -⟩ := holds.openTable
  obtain ⟨-, -, -, headed⟩ := holds.writable
  obtain ⟨first, read, -⟩ :=
    RowReader.opened_of_openData ((openTable_of_file leads found).mp opened)
  obtain ⟨header, records, again, begins, fields⟩ := RowReader.recordsOf_written
    (show (engine.settings.readOptionsOf .events).delimiter < 0x80 from
      engine.settings.delimiterByte_lt) holds.separates holds.writable
    (show 0 < (engine.settings.readOptionsOf .events).bufferCapacity from Nat.le_max_right _ _)
  obtain ⟨rfl, rfl⟩ := List.cons.inj (again.symm.trans read)
  have wellFormed := RowReader.wellFormed_of_fields headed fields
  obtain rfl : first = columns.map Utf8.encode := begins
  rw [List.length_map]
  refine ⟨_, ⟨⟨path, _, leads, found, read⟩, .inr ?_⟩, ?_⟩
  · rwa [List.length_map]
  · rw [Csv.wellFormedOf, List.filter_eq_self.mpr (by simpa using wellFormed), fields]

end Engine

end Medals
