import Medals.Proofs.Csv.Policy
import Medals.Proofs.Stream.Layout

/-!
# Readers as sources

Pulling rows from a pipeline over a reader is pulling them from the reader. `runs_of_pulls` finds
the run of a reader in its answers, and `row_of_runs` says that every row of a run is that of a
record of the data.
-/

namespace Medals

namespace Pipeline

section Pulls

variable {reader after : RowReader}

theorem next_ofReader_of_row {row : Row} (pulled : reader.next = (.ok (some row), after)) :
    (ofReader reader).next = (.ok (some row), ofReader after) := by
  have found : (ofReader reader).origin.next = (.ok (some row), .text after) := by
    simp only [ofReader, ofOrigin, Origin.next, pulled]
  exact next_of_row (ofReader reader) found

theorem next_ofReader_of_end (ended : reader.next = (.ok none, after)) :
    (ofReader reader).next = (.ok none, ofReader after) := by
  have found : (ofReader reader).origin.next = (.ok none, .text after) := by
    simp only [ofReader, ofOrigin, Origin.next, ended]
  exact next_of_end (ofReader reader) found

theorem next_ofReader_of_fault {fault : Fault} (failed : reader.next = (.error fault, after)) :
    (ofReader reader).next = (.error fault, ofReader after) := by
  have found : (ofReader reader).origin.next = (.error fault, .text after) := by
    simp only [ofReader, ofOrigin, Origin.next, failed]
  exact next_of_fault (ofReader reader) found

end Pulls

/-- Answers that list some rows and then the end are a run of these rows. -/
theorem runs_of_pulls {reader : RowReader} {rows : List Row}
    (answers : ∀ pulls, (reader.pulled pulls).next.1 = .ok rows[pulls]?) :
    ∃ last, Runs (ofReader reader) rows last := by
  induction rows generalizing reader with
  | nil => exact ⟨_, .done (next_ofReader_of_end (Prod.ext (answers 0) rfl))⟩
  | cons row rest ih =>
    obtain ⟨last, run⟩ := ih fun pulls => answers (pulls + 1)
    exact ⟨last, .pull (next_ofReader_of_row (Prod.ext (answers 0) rfl)) run⟩

/-- The rows of a run are answers to pulls. -/
theorem pulls_of_runs {reader : RowReader} {rows : List Row} {last : Pipeline}
    (run : Runs (ofReader reader) rows last) {row : Row} (member : row ∈ rows) :
    ∃ pulls, (reader.pulled pulls).next.1 = .ok (some row) := by
  induction rows generalizing reader with
  | nil => simp at member
  | cons first rest ih =>
    cases run with
    | pull pulled run =>
      obtain ⟨after, next⟩ : ∃ after, reader.next = (.ok (some first), after) := by
        cases found : reader.next with
        | mk answer after =>
          match answer with
          | .error fault => simp [next_ofReader_of_fault found] at pulled
          | .ok none => simp [next_ofReader_of_end found] at pulled
          | .ok (some other) =>
            rw [next_ofReader_of_row found] at pulled
            obtain ⟨same, -⟩ := Prod.mk.inj pulled
            exact ⟨after, by rw [Option.some.inj (Except.ok.inj same)]⟩
      rw [next_ofReader_of_row next] at pulled
      obtain ⟨_, rfl⟩ := Prod.mk.inj pulled
      rcases List.mem_cons.mp member with rfl | later
      · exact ⟨0, by rw [RowReader.pulled, next]⟩
      · obtain ⟨pulls, answered⟩ := ih run later
        exact ⟨pulls + 1, by rw [RowReader.pulled, next]; exact answered⟩

/-- Every row of a run is that of a record of the data. -/
theorem row_of_runs {data : List UInt8} {source : String} {options : ReadOptions}
    {reader : RowReader} {rows : List Row} {last : Pipeline}
    (opened : RowReader.openData data source options = .ok reader)
    (run : Runs (ofReader reader) rows last) {row : Row} (member : row ∈ rows) :
    ∃ record, row = options.rowOf reader.names record := by
  obtain ⟨header, _, serves, unfinished, _⟩ := RowReader.opened_of_openData opened
  obtain ⟨pulls, answered⟩ := pulls_of_runs run member
  rw [(RowReader.follows serves unfinished rfl pulls).answer] at answered
  obtain ⟨entry, _, same⟩ := RowReader.row_of_answer answered
  exact ⟨entry.2, serves.names_eq.symm ▸ same⟩

/-- Answers that list some rows and then the end make a table of these rows. -/
theorem toTable_of_pulls {reader : RowReader} {rows : List Row}
    (answers : ∀ pulls, (reader.pulled pulls).next.1 = .ok rows[pulls]?) :
    ∃ table, (ofReader reader).toTable.1 = .ok table ∧ table.names = reader.names ∧
      table.rows = rows := by
  obtain ⟨last, run⟩ := runs_of_pulls answers
  obtain ⟨table, made, names, same⟩ := toTable_of_runs (.origin (.text reader)) run
  exact ⟨table, congrArg Prod.fst made, names, same⟩

end Pipeline

end Medals
