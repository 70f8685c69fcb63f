import Medals.Proofs.Csv.Records

/-!
# Blocks of a source

The reading position fetches its data block by block. `Cursor.next_eq_finish` says that a record is
read as if all bytes to come were there as a whole (`Scan.finish`), wherever the blocks end.
-/

namespace Medals

namespace Csv

namespace Scan

/-- A scan goes through one piece after the other. -/
theorem block_append (delimiter : UInt8) (scan : Scan) (front back : List UInt8) :
    scan.block delimiter (front ++ back) =
      match scan.block delimiter front with
      | (scan, rest, true) => (scan, rest ++ back, true)
      | (scan, _, false) => scan.block delimiter back := by
  induction front generalizing scan with
  | nil => rfl
  | cons byte rest ih =>
    rw [List.cons_append, block, block]
    cases scan.take delimiter byte with
    | mk scan ended => cases ended <;> simp [ih]

/-- The record that a scan finds in bytes after which nothing follows, the scan behind it, and the
bytes left over. -/
def finish (delimiter : UInt8) (scan : Scan) (bytes : List UInt8) :
    Option Record × Scan × List UInt8 :=
  match scan.block delimiter bytes with
  | (scan, rest, true) => (some scan.record, scan, rest)
  | (scan, _, false) =>
    (if scan.phase.betweenRecords then none else some scan.record, scan, [])

end Scan

namespace Cursor

/-- The bytes still to be consumed. -/
def bytes (cursor : Cursor) : List UInt8 :=
  cursor.block ++ cursor.later.flatten

/-- The scan of the next record before its first byte. -/
def scan (cursor : Cursor) : Scan :=
  Scan.start (if cursor.afterReturn then .afterReturn else .recordStart) cursor.line

theorem readBlocks_eq_finish (delimiter : UInt8) (scan : Scan) (fetched : Nat) (block : List UInt8)
    (later : List (List UInt8)) :
    ∃ after, readBlocks delimiter scan fetched block later =
        ((scan.finish delimiter (block ++ later.flatten)).1, after) ∧
      after.delimiter = delimiter ∧
      after.afterReturn =
        ((scan.finish delimiter (block ++ later.flatten)).2.1.phase == .afterReturn) ∧
      after.line = (scan.finish delimiter (block ++ later.flatten)).2.1.line ∧
      after.bytes = (scan.finish delimiter (block ++ later.flatten)).2.2 := by
  induction later generalizing scan fetched block with
  | nil =>
    rw [readBlocks, List.flatten_nil, List.append_nil, Scan.finish]
    cases scan.block delimiter block with
    | mk scan outcome =>
      obtain ⟨rest, ended⟩ := outcome
      cases ended with
      | true => exact ⟨_, rfl, rfl, rfl, rfl, List.append_nil rest⟩
      | false => by_cases between : scan.phase.betweenRecords = true <;>
          simp [between, afterScan, bytes]
  | cons next later ih =>
    rw [readBlocks, List.flatten_cons, Scan.finish, Scan.block_append]
    cases scan.block delimiter block with
    | mk scan outcome =>
      obtain ⟨rest, ended⟩ := outcome
      cases ended with
      | true => exact ⟨_, rfl, rfl, rfl, rfl, by simp [afterScan, bytes]⟩
      | false => exact ih scan (fetched + next.length) next

/-- The next record and the position behind it depend on the bytes to come, not on their blocks. -/
theorem next_eq_finish (cursor : Cursor) :
    ∃ after, cursor.next = ((cursor.scan.finish cursor.delimiter cursor.bytes).1, after) ∧
      after.delimiter = cursor.delimiter ∧
      after.afterReturn =
        ((cursor.scan.finish cursor.delimiter cursor.bytes).2.1.phase == .afterReturn) ∧
      after.line = (cursor.scan.finish cursor.delimiter cursor.bytes).2.1.line ∧
      after.bytes = (cursor.scan.finish cursor.delimiter cursor.bytes).2.2 :=
  readBlocks_eq_finish cursor.delimiter cursor.scan cursor.fetched cursor.block cursor.later

end Cursor

/-- Blocks together are the data. -/
theorem flatten_blocks {capacity fuel : Nat} (positive : 0 < capacity) {data : List UInt8}
    (enough : data.length ≤ fuel) : (blocks capacity fuel data).flatten = data := by
  induction fuel generalizing data with
  | zero => simp [blocks, List.length_eq_zero_iff.mp (Nat.le_zero.mp enough)]
  | succ fuel ih =>
    cases data with
    | nil => rfl
    | cons byte rest =>
      have shorter : ((byte :: rest).drop capacity).length ≤ fuel := by
        simp only [List.length_drop, List.length_cons] at *
        omega
      rw [blocks, if_neg (by omega), List.flatten_cons, ih shorter, List.take_append_drop]
      simp

/-- The first of the blocks, and the data behind it in the others. -/
theorem blocks_eq_cons {capacity : Nat} (positive : 0 < capacity) {data : List UInt8}
    (someData : data ≠ []) :
    ∃ later, blocks capacity data.length data = data.take capacity :: later ∧
      later.flatten = data.drop capacity := by
  cases data with
  | nil => exact absurd rfl someData
  | cons byte rest =>
    refine ⟨blocks capacity rest.length ((byte :: rest).drop capacity), ?_, ?_⟩
    · rw [List.length_cons, blocks, if_neg (Nat.ne_of_gt positive)]
      simp
    · refine flatten_blocks positive ?_
      simp only [List.length_drop, List.length_cons]
      omega

/-- Data that do not begin with a byte order mark are read from their first byte on. -/
theorem Cursor.start?_of_unmarked {delimiter : UInt8} {capacity : Nat} {data : List UInt8}
    (positive : 0 < capacity) (someData : data ≠ []) (unmarked : ¬ Utf8.mark <+: data) :
    ∃ cursor, Cursor.start? delimiter capacity data = some cursor ∧
      cursor.delimiter = delimiter ∧ cursor.afterReturn = false ∧ cursor.line = 1 ∧
      cursor.bytes = data := by
  have whole := flatten_blocks positive (Nat.le_refl data.length)
  cases cut : blocks capacity data.length data with
  | nil =>
    rw [cut] at whole
    exact absurd whole.symm someData
  | cons first later =>
    rw [cut, List.flatten_cons] at whole
    have noMark : ¬ Utf8.mark <+: first := fun begins =>
      unmarked (whole ▸ begins.trans (List.prefix_append first _))
    have other : first ≠ Utf8.mark := fun same => noMark (same ▸ List.prefix_rfl)
    refine ⟨⟨delimiter, false, 1, first, later, first.length⟩, ?_, rfl, rfl, rfl, whole⟩
    simp [Cursor.start?, cut, other, noMark]

end Csv

end Medals
