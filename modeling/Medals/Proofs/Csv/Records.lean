import Medals.Csv.Record

/-!
# The records of a source

`Cursor.records` are the records from a reading position to the end of the data, each with the line
on which reading it began, and `recordsOf` are those of data from their beginning, the header
included.
-/

namespace Medals

namespace Csv

/-- A record with the line on which reading it began. -/
abbrev LinedRecord := Nat × Record

namespace Cursor

/-- The records from a position on. -/
def records (cursor : Cursor) : List LinedRecord :=
  match _found : cursor.next with
  | (none, _) => []
  | (some record, after) => (cursor.line, record) :: records after
termination_by cursor.remaining
decreasing_by exact next_remaining_lt _found

theorem records_of_end {cursor after : Cursor} (ended : cursor.next = (none, after)) :
    cursor.records = [] := by
  rw [records]
  split <;> simp_all

theorem records_of_record {cursor after : Cursor} {record : Record}
    (found : cursor.next = (some record, after)) :
    cursor.records = (cursor.line, record) :: after.records := by
  rw [records]
  split <;> simp_all

/-- Without records to come the next pull finds the end. -/
theorem next_of_records_nil {cursor : Cursor} (empty : cursor.records = []) :
    ∃ after, cursor.next = (none, after) := by
  match found : cursor.next with
  | (none, after) => exact ⟨after, rfl⟩
  | (some record, after) => simp [records_of_record found] at empty

/-- The next pull finds the first of the records to come. -/
theorem next_of_records_cons {cursor : Cursor} {first : LinedRecord} {rest : List LinedRecord}
    (pending : cursor.records = first :: rest) :
    ∃ after, cursor.next = (some first.2, after) ∧ first.1 = cursor.line ∧ after.records = rest := by
  match found : cursor.next with
  | (none, after) => simp [records_of_end found] at pending
  | (some record, after) =>
    rw [records_of_record found, List.cons.injEq] at pending
    obtain ⟨rfl, rfl⟩ := pending
    exact ⟨after, rfl, rfl, rfl⟩

end Cursor

/-- The records of data, the header included. -/
def recordsOf (delimiter : UInt8) (capacity : Nat) (data : List UInt8) : List LinedRecord :=
  match Cursor.start? delimiter capacity data with
  | some cursor => cursor.records
  | none => []

end Csv

end Medals
