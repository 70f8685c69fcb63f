import Medals.Proofs.Csv.Blocks
import Medals.Proofs.Csv.Policy

/-!
# Reading ends and stays ended

A pull looks for a row record by record, and nothing but the data bounds how many malformed ones it
leaves out. Every record takes at least one byte, so the bytes still to be consumed are the measure of
both loops, that of a pull and that of a caller who pulls until the end. `RowReader.pulls_end` puts
this together: pulls take fewer turns than the data have bytes, and after as few rows the end or the
one fault is found, behind which nothing changes any more.
-/

namespace Medals

namespace Csv

namespace Cursor

theorem remaining_eq (cursor : Cursor) : cursor.remaining = cursor.bytes.length := by
  rw [remaining, bytes, List.length_append]

/-- Whether or not there is a record, reading on gives no bytes back. -/
theorem next_remaining_le {cursor after : Cursor} {record? : Option Record}
    (found : cursor.next = (record?, after)) : after.remaining ≤ cursor.remaining := by
  cases record? with
  | some record => exact (next_remaining_lt found).le
  | none =>
    obtain ⟨same, next, -, -, -, left⟩ := cursor.next_eq_finish
    obtain ⟨ended, rfl⟩ := Prod.mk.inj (found.symm.trans next)
    have nothing : after.bytes = [] := by
      rw [left]
      unfold Scan.finish at ended ⊢
      split at ended
      · contradiction
      · rfl
    rw [remaining_eq, nothing]
    exact Nat.zero_le _

/-- Before the first record no more bytes are to come than the data have. -/
theorem remaining_start?_le {delimiter : UInt8} {capacity : Nat} {data : List UInt8}
    {cursor : Cursor} (started : start? delimiter capacity data = some cursor) :
    cursor.remaining ≤ data.length := by
  unfold start? at started
  split at started
  · contradiction
  · next first later cut =>
    have positive : 0 < capacity := by
      by_contra none
      obtain rfl : capacity = 0 := by omega
      cases data <;> simp [blocks] at cut
    have whole := congrArg List.length (flatten_blocks positive (Nat.le_refl data.length))
    rw [cut, List.flatten_cons, List.length_append] at whole
    split at started
    · contradiction
    · have kept : cursor.remaining ≤ first.length + later.flatten.length := by
        rw [← Option.some.inj started, remaining]
        dsimp only
        split <;> simp
      omega

end Cursor

end Csv

namespace RowReader

/-- What one turn of the loop of a pull comes to. -/
inductive Turn where
  /-- The pull is answered. -/
  | answered (answer : Except Fault (Option Row)) (after : RowReader)
  /-- A malformed record is left out, and the pull goes on. -/
  | skipped (after : RowReader)

/-- One turn of the loop in which a pull looks for a row. -/
def turn (reader : RowReader) : Turn :=
  if reader.finished then .answered (.ok none) reader
  else if reader.limitReached then .answered (.ok none) { reader with finished := true }
  else
    match reader.cursor.next with
    | (none, cursor) => .answered (.ok none) { reader with cursor, finished := true }
    | (some record, cursor) =>
      let after := reader.advance cursor
      match reader.defect? reader.cursor.line record with
      | none => .answered (.ok (some (after.rowOf record))) (after.emit (after.rowOf record))
      | some fault =>
        let after := after.countMalformed
        match reader.malformed with
        | .skip => .skipped after
        | .fail => .answered (.error fault) { after with finished := true }
        | .pad => .answered (.ok (some (after.rowOf record))) (after.emit (after.rowOf record))

/-- The answer to a pull and the reader after it, if they are found within so many turns. -/
def nextWithin : Nat → RowReader → Option (Except Fault (Option Row) × RowReader)
  | 0, _ => none
  | turns + 1, reader =>
    match reader.turn with
    | .answered answer after => some (answer, after)
    | .skipped after => nextWithin turns after

section Turns

variable {reader after : RowReader}

/-- A pull is a turn, and after a record left out another pull. -/
theorem next_eq_turn (reader : RowReader) :
    reader.next =
      match reader.turn with
      | .answered answer after => (answer, after)
      | .skipped after => after.next := by
  unfold turn
  cases finished : reader.finished with
  | true => exact next_of_finished finished
  | false =>
    cases full : reader.limitReached with
    | true => exact next_of_limit finished full
    | false =>
      cases found : reader.cursor.next with
      | mk record? cursor =>
        cases record? with
        | none => exact next_of_end finished full found
        | some record =>
          rw [next_of_record finished full found]
          cases defect : reader.defect? reader.cursor.line record with
          | none => simp [defect]
          | some fault => cases reader.malformed <;> simp [defect]

/-- A record that is left out has been read. -/
theorem remaining_of_skipped (skipped : reader.turn = .skipped after) :
    after.cursor.remaining < reader.cursor.remaining := by
  unfold turn at skipped
  split at skipped
  · contradiction
  split at skipped
  · contradiction
  split at skipped
  · contradiction
  · next record cursor found =>
    dsimp only at skipped
    split at skipped
    · contradiction
    · split at skipped
      · obtain rfl := Turn.skipped.inj skipped
        exact Csv.Cursor.next_remaining_lt found
      · contradiction
      · contradiction

/-- A pull takes no more turns than there are bytes to come, and one for the end. -/
theorem nextWithin_eq_next {turns : Nat} (enough : reader.cursor.remaining < turns) :
    reader.nextWithin turns = some reader.next := by
  induction turns generalizing reader with
  | zero => contradiction
  | succ turns ih =>
    rw [nextWithin, next_eq_turn]
    cases comes : reader.turn with
    | answered answer after => rfl
    | skipped after =>
      have fewer := remaining_of_skipped comes
      exact ih (by omega)

end Turns

section Pulls

variable {reader : RowReader}

/-- The records that have been read and the bytes still to be consumed, of which each further record
takes one at least. -/
def budget (reader : RowReader) : Nat :=
  reader.recordsRead + reader.cursor.remaining

theorem budget_advance_le {cursor : Csv.Cursor} {record : Csv.Record}
    (found : reader.cursor.next = (some record, cursor)) :
    (reader.advance cursor).budget ≤ reader.budget := by
  have fewer := Csv.Cursor.next_remaining_lt found
  simp only [budget, advance]
  omega

theorem budget_next_le (reader : RowReader) : reader.next.2.budget ≤ reader.budget := by
  fun_induction RowReader.next reader with
  | case1 => exact Nat.le_refl _
  | case2 => exact Nat.le_refl _
  | case3 reader _ _ cursor found =>
    exact Nat.add_le_add_left (Csv.Cursor.next_remaining_le found) _
  | case4 _ _ _ _ _ found => exact budget_advance_le found
  | case5 _ _ _ _ _ found _ _ _ _ _ ih => exact ih.trans (budget_advance_le found)
  | case6 _ _ _ _ _ found => exact budget_advance_le found
  | case7 _ _ _ _ _ found => exact budget_advance_le found

/-- A pull that yields a row has read a record for it, and any other answer is the last: the end, or
a fault under the policy that lets one end the reading. -/
theorem next_cases (reader : RowReader) :
    (∃ row, reader.next.1 = .ok (some row) ∧ reader.recordsRead < reader.next.2.recordsRead) ∨
      (reader.next.1 = .ok none ∨
        reader.malformed = .fail ∧ ∃ fault, reader.next.1 = .error fault) ∧
      reader.next.2.finished = true := by
  fun_induction RowReader.next reader with
  | case1 reader finished => exact .inr ⟨.inl rfl, finished⟩
  | case2 => exact .inr ⟨.inl rfl, rfl⟩
  | case3 => exact .inr ⟨.inl rfl, rfl⟩
  | case4 => exact .inl ⟨_, rfl, Nat.lt_succ_self _⟩
  | case5 _ _ _ _ _ _ _ _ _ _ _ ih =>
    refine ih.imp_left ?_
    rintro ⟨row, yielded, more⟩
    exact ⟨row, yielded, (Nat.lt_succ_self _).trans more⟩
  | case6 _ _ _ _ _ _ _ fault _ _ policy => exact .inr ⟨.inr ⟨policy, fault, rfl⟩, rfl⟩
  | case7 => exact .inl ⟨_, rfl, Nat.lt_succ_self _⟩

/-- A pull yields a row. -/
def YieldsRow (reader : RowReader) : Prop :=
  ∃ row, reader.next.1 = .ok (some row)

theorem malformed_next (reader : RowReader) : reader.next.2.malformed = reader.malformed := by
  fun_induction RowReader.next reader <;> first | rfl | assumption

theorem malformed_pulled (reader : RowReader) (pulls : Nat) :
    (reader.pulled pulls).malformed = reader.malformed := by
  induction pulls generalizing reader with
  | zero => rfl
  | succ pulls ih => exact (ih reader.next.2).trans reader.malformed_next

theorem budget_pulled_le (reader : RowReader) (pulls : Nat) :
    (reader.pulled pulls).budget ≤ reader.budget := by
  induction pulls generalizing reader with
  | zero => exact Nat.le_refl _
  | succ pulls ih => exact (ih reader.next.2).trans reader.budget_next_le

theorem pulled_succ (reader : RowReader) (pulls : Nat) :
    reader.pulled (pulls + 1) = (reader.pulled pulls).next.2 := by
  induction pulls generalizing reader with
  | zero => rfl
  | succ pulls ih => exact ih reader.next.2

theorem pulled_add (reader : RowReader) (pulls more : Nat) :
    reader.pulled (pulls + more) = (reader.pulled pulls).pulled more := by
  induction pulls generalizing reader with
  | zero => rw [Nat.zero_add, pulled]
  | succ pulls ih => rw [Nat.succ_add]; exact ih reader.next.2

/-- Each row has been read from a record of its own. -/
theorem le_recordsRead_pulled {pulls : Nat}
    (rows : ∀ earlier < pulls, (reader.pulled earlier).YieldsRow) :
    reader.recordsRead + pulls ≤ (reader.pulled pulls).recordsRead := by
  induction pulls with
  | zero => exact Nat.le_refl _
  | succ pulls ih =>
    have before := ih fun earlier less => rows earlier (Nat.lt_succ_of_lt less)
    rw [pulled_succ]
    rcases (reader.pulled pulls).next_cases with ⟨_, -, more⟩ | ⟨silent, -⟩
    · omega
    · obtain ⟨row, yielded⟩ := rows pulls (Nat.lt_succ_self pulls)
      rw [yielded] at silent
      simp at silent

/-- After at most as many rows as there are bytes to come, a pull yields none. -/
theorem exists_silent (reader : RowReader) :
    ∃ rows ≤ reader.cursor.remaining,
      (∀ pulls < rows, (reader.pulled pulls).YieldsRow) ∧ ¬ (reader.pulled rows).YieldsRow := by
  classical
  have most : ∀ pulls, (∀ earlier < pulls, (reader.pulled earlier).YieldsRow) →
      pulls ≤ reader.cursor.remaining := by
    intro pulls rows
    have read := le_recordsRead_pulled rows
    have bound := reader.budget_pulled_le pulls
    simp only [budget] at bound
    omega
  have silent : ∃ pulls, ¬ (reader.pulled pulls).YieldsRow := by
    by_contra always
    have rows := not_exists_not.mp always
    exact Nat.not_succ_le_self _ (most (reader.cursor.remaining + 1) fun pulls _ => rows pulls)
  have rows : ∀ pulls < Nat.find silent, (reader.pulled pulls).YieldsRow :=
    fun pulls less => not_not.mp (Nat.find_min silent less)
  exact ⟨Nat.find silent, most _ rows, rows, Nat.find_spec silent⟩

/-- An answer that is no row is the end or the one fault, and behind it nothing changes. -/
theorem stays_of_silent {pulls : Nat} (silent : ¬ (reader.pulled pulls).YieldsRow) :
    ((reader.pulled pulls).next.1 = .ok none ∨
        reader.malformed = .fail ∧ ∃ fault, (reader.pulled pulls).next.1 = .error fault) ∧
      ∀ later, pulls < later →
        reader.pulled later = reader.pulled (pulls + 1) ∧ (reader.pulled later).next.1 = .ok none := by
  rcases (reader.pulled pulls).next_cases with ⟨row, yielded, -⟩ | ⟨answer, finished⟩
  · exact absurd ⟨row, yielded⟩ silent
  · rw [malformed_pulled] at answer
    rw [← pulled_succ] at finished
    refine ⟨answer, fun later behind => ?_⟩
    obtain ⟨more, rfl⟩ := Nat.exists_eq_add_of_lt behind
    rw [show pulls + more + 1 = pulls + 1 + more by omega, pulled_add,
      pulled_of_finished finished]
    exact ⟨rfl, by rw [next_of_finished finished]⟩

/-- Behind the header fewer bytes are to come than the data have. -/
theorem remaining_lt_of_openData {data : List UInt8} {source : String} {options : ReadOptions}
    (opened : openData data source options = .ok reader) :
    reader.cursor.remaining < data.length ∧ reader.recordsRead = 0 := by
  obtain ⟨start, header, cursor, started, found, -, rfl⟩ := exists_of_openData opened
  exact ⟨(Csv.Cursor.next_remaining_lt found).trans_le (Csv.Cursor.remaining_start?_le started), rfl⟩

end Pulls

/-- Of a reader that has been opened on data, every pull is answered within as many turns as the data
have bytes, and fewer records are read than that. After fewer rows than the data have bytes a pull
finds the end, or the fault that ends the reading if the policy has one end it; every further pull
finds the end and leaves the reader, its counters included, as it is. -/
theorem pulls_end {data : List UInt8} {source : String} {options : ReadOptions}
    {reader : RowReader} (opened : openData data source options = .ok reader) :
    (∀ pulls, (reader.pulled pulls).nextWithin data.length = some (reader.pulled pulls).next) ∧
      (∀ pulls, (reader.pulled pulls).stats.recordsRead < data.length) ∧
      ∃ rows < data.length,
        (∀ pulls < rows, ∃ row, (reader.pulled pulls).next.1 = .ok (some row)) ∧
        ((reader.pulled rows).next.1 = .ok none ∨
          options.malformed = .fail ∧ ∃ fault, (reader.pulled rows).next.1 = .error fault) ∧
        ∀ later, rows < later →
          (reader.pulled later).next.1 = .ok none ∧
          reader.pulled later = reader.pulled (rows + 1) ∧
          (reader.pulled later).stats = (reader.pulled (rows + 1)).stats := by
  obtain ⟨fewer, none⟩ := remaining_lt_of_openData opened
  obtain ⟨_, -, serves, -⟩ := opened_of_openData opened
  have bound (pulls : Nat) : (reader.pulled pulls).budget < data.length :=
    (reader.budget_pulled_le pulls).trans_lt (by rw [budget, none, Nat.zero_add]; exact fewer)
  refine ⟨fun pulls => ?_, fun pulls => ?_, ?_⟩
  · exact nextWithin_eq_next ((Nat.le_add_left _ _).trans_lt (bound pulls))
  · exact (Nat.le_add_right _ _).trans_lt (bound pulls)
  · obtain ⟨rows, few, yields, silent⟩ := reader.exists_silent
    obtain ⟨answer, stays⟩ := stays_of_silent silent
    rw [serves.malformed] at answer
    refine ⟨rows, few.trans_lt fewer, yields, answer, fun later behind => ?_⟩
    obtain ⟨same, ended⟩ := stays later behind
    exact ⟨ended, same, by rw [same]⟩

/-- Behind an empty line and a record with a field too many, a quote is never closed. -/
theorem pulls_end_of_open_quote :
    ∃ reader, openData [97, 10, 13, 49, 44, 50, 10, 34, 51] "inline"
        ⟨44, none, .skip, [], [], 1⟩ = .ok reader ∧
      reader.nextWithin 9 = some reader.next ∧ (reader.pulled 9).stats.recordsRead < 9 ∧
      ∃ rows < 9, (reader.pulled rows).next.1 = .ok none ∧
        ∀ later, rows < later → (reader.pulled later).stats = (reader.pulled (rows + 1)).stats := by
  have opens : (openData [97, 10, 13, 49, 44, 50, 10, 34, 51] "inline"
      ⟨44, none, .skip, [], [], 1⟩).isOk = true := by decide
  cases opened : openData [97, 10, 13, 49, 44, 50, 10, 34, 51] "inline"
      ⟨44, none, .skip, [], [], 1⟩ with
  | error fault =>
    rw [opened] at opens
    contradiction
  | ok reader =>
    obtain ⟨turns, read, rows, few, -, answer, stays⟩ := pulls_end opened
    have ended := answer.resolve_right fun failed => by cases failed.1
    exact ⟨reader, rfl, turns 0, read 9, rows, few, ended,
      fun later behind => (stays later behind).2.2⟩

end RowReader

end Medals
