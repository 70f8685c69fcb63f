import Medals.Proofs.Csv.RecordWriter
import Medals.Proofs.Table.Refusals

/-!
# Rows that are refused leave no trace

Whatever calls have been made, a writer of rows stands between two records, so that a row is refused
for nothing but a column of the header that it lacks, and before any of its fields is written
(`CsvWriter.run_behind`). `CsvWriter.output_of_calls` is the same of any sequence of calls on a new
writer: what each call answers, and the bytes that are there in the end.
-/

namespace Medals

namespace CsvWriter

/-- The row has all columns of a header. -/
def Fits (columns : List String) (row : Row) : Prop :=
  ∀ name ∈ columns, name ∈ row.names

instance (columns : List String) : DecidablePred (Fits columns) := fun _ =>
  inferInstanceAs (Decidable (∀ _ ∈ _, _))

/-- A call on a writer. -/
inductive Call where
  | one (row : Row)
  /-- Rows are written up to the first that is refused. -/
  | several (rows : List Row)

namespace Call

def run (writer : CsvWriter) : Call → Except Fault Unit × CsvWriter
  | one row => writer.writeRow row
  | several rows => writer.writeRows rows

/-- The rows of a call that are written under the columns of a header. -/
def written (columns : List String) : Call → List Row
  | one row => if Fits columns row then [row] else []
  | several rows => rows.takeWhile fun row => Fits columns row

/-- Why a call fails under the columns of a header: the first of them that the first refused row
lacks. -/
def refusal? (columns : List String) : Call → Option Fault
  | one row => missingColumn? row.names columns
  | several rows => rows.findSome? fun row => missingColumn? row.names columns

/-- The answer of a call under the columns of a header. -/
def outcome (columns : List String) (call : Call) : Except Fault Unit :=
  match call.refusal? columns with
  | some fault => .error fault
  | none => .ok ()

end Call

/-- The answers of calls made one after the other, whether or not one fails, and the writer behind
them. -/
def runs (writer : CsvWriter) : List Call → List (Except Fault Unit) × CsvWriter
  | [] => ([], writer)
  | call :: rest =>
    let (outcome, writer) := call.run writer
    let (outcomes, last) := runs writer rest
    (outcome :: outcomes, last)

section Calls

variable {delimiter : UInt8} {columns : List String} {row : Row}

theorem missingColumn?_of_fits (fits : Fits columns row) :
    missingColumn? row.names columns = none :=
  missingColumn?_eq_none_iff.mpr fits

theorem exists_missingColumn_of_not_fits (unfit : ¬ Fits columns row) :
    ∃ fault, missingColumn? row.names columns = some fault :=
  Option.ne_none_iff_exists'.mp (mt missingColumn?_eq_none_iff.mp unfit)

/-- The cells of a row are looked up in the order of the header. -/
theorem fault?_record (writer : CsvWriter) (row : Row) :
    fault? (writer.record row) = missingColumn? row.names writer.columns := by
  rw [record, fault?_mapM, missingColumn?_eq_findSome?]
  refine congrArg (fun first => writer.columns.findSome? first) (funext fun name => ?_)
  rw [Row.get, requirePosition, Row.position?]
  cases position? row.names name <;> rfl

/-- A row that is refused changes nothing, since its cells are looked up before any is written. -/
theorem writeRow_of_missing (writer : CsvWriter) {fault : Fault}
    (missing : missingColumn? row.names writer.columns = some fault) :
    writer.writeRow row = (.error fault, writer) := by
  rw [writeRow, fault?_eq_some_iff.mp ((fault?_record writer row).trans missing)]

/-- Rows are written up to the first that lacks a column, which is the answer. -/
theorem writeRows_behind (records : List Csv.Record) (rows : List Row) :
    (behind delimiter columns records).writeRows rows =
      ((Call.several rows).outcome columns, behind delimiter columns
        (records ++ ((Call.several rows).written columns).map (fieldsUnder columns))) := by
  induction rows generalizing records with
  | nil => simp [writeRows, Call.outcome, Call.refusal?, Call.written]
  | cons row rest ih =>
    rw [writeRows]
    by_cases fits : Fits columns row
    · have further := ih (records ++ [fieldsUnder columns row])
      rw [writeRow_of_held records fits]
      simpa [Call.outcome, Call.refusal?, Call.written, fits, missingColumn?_of_fits fits] using further
    · obtain ⟨fault, missing⟩ := exists_missingColumn_of_not_fits fits
      rw [writeRow_of_missing (behind delimiter columns records) missing]
      simp [Call.outcome, Call.refusal?, Call.written, fits, missing]

/-- A call on a writer between records answers as its rows fit the header, and leaves the writer
between records behind those of the rows that do. -/
theorem run_behind (records : List Csv.Record) (call : Call) :
    call.run (behind delimiter columns records) =
      (call.outcome columns, behind delimiter columns
        (records ++ (call.written columns).map (fieldsUnder columns))) := by
  cases call with
  | several rows => exact writeRows_behind records rows
  | one row =>
    rw [Call.run]
    by_cases fits : Fits columns row
    · rw [writeRow_of_held records fits]
      simp [Call.outcome, Call.refusal?, Call.written, fits, missingColumn?_of_fits fits]
    · obtain ⟨fault, missing⟩ := exists_missingColumn_of_not_fits fits
      rw [writeRow_of_missing (behind delimiter columns records) missing]
      simp [Call.outcome, Call.refusal?, Call.written, fits, missing]

theorem runs_behind (records : List Csv.Record) (calls : List Call) :
    (behind delimiter columns records).runs calls =
      (calls.map (Call.outcome columns), behind delimiter columns
        (records ++ (calls.flatMap (Call.written columns)).map (fieldsUnder columns))) := by
  induction calls generalizing records with
  | nil => simp [runs]
  | cons call rest ih =>
    rw [runs, run_behind]
    dsimp only
    rw [ih, List.map_cons, List.flatMap_cons, List.map_append, List.append_assoc]

end Calls

/-- The header of a new writer is not refused. Calls on it, of single rows and of several, fail for
nothing but a column of the header that a row lacks, and name the first of these. In the end there are
the bytes of the header and of each row that was not refused, in the order of the calls; of several
rows those before the first refused one. -/
theorem output_of_calls (delimiter : UInt8) (columns : List String) (calls : List Call) :
    ((Csv.RecordWriter.start delimiter).write (columns.map Utf8.encode)).1 = .ok () ∧
      ((start delimiter columns).runs calls).1 = calls.map (Call.outcome columns) ∧
      ((start delimiter columns).runs calls).2.output =
        Csv.encodeRecord delimiter (columns.map Utf8.encode) ++
          (calls.flatMap (Call.written columns)).flatMap (fun row =>
            Csv.encodeRecord delimiter (fieldsUnder columns row)) ∧
      ∀ (row : Row) (fault : Fault), (Call.one row).outcome columns = .error fault ↔
        ∃ front name back, columns = front ++ name :: back ∧
          (∀ earlier ∈ front, earlier ∈ row.names) ∧ name ∉ row.names ∧
          fault = .unknownColumn name := by
  rw [start_eq_behind, runs_behind, output_behind, Csv.RecordWriter.write_start]
  refine ⟨rfl, rfl, ?_, fun row fault => ?_⟩
  · simp [List.flatMap_def, Function.comp_def]
  · have first := @missingColumn?_map_eq_some_iff row.names String id columns fault
    rw [List.map_id] at first
    rw [Call.outcome, Call.refusal?]
    refine Iff.trans ?_ first
    cases missingColumn? row.names columns <;> simp

end CsvWriter

end Medals
