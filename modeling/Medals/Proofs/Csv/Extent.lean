import Medals.Proofs.Csv.Blocks
import Mathlib.Algebra.Order.Floor.Div

/-!
# How far records reach

`extentsOf` are the records of data with the offset behind each, told by one scan over all bytes
without blocks. `recordsOf_eq_extentsOf` says that reading in blocks finds these records.

Two things follow from where a record ends. What has been fetched behind it stops with the block that
holds its last byte (`Cursor.Behind.fetched_le`), and a record that a byte terminates is found, with
those before it, in any data that begin with the same bytes (`extentsOf_of_take`).
-/

namespace Medals

namespace Csv

/-- A record and where it ends. -/
structure Extent where
  entry : LinedRecord
  /-- The offset behind its last byte, the one that terminates it included. -/
  stop : Nat
  /-- A byte terminates it, not the end of the data. -/
  terminated : Bool
deriving DecidableEq, Repr

namespace Scan

/-- The records that a scan begun on the given line finds in the bytes from an offset on. -/
def extents (delimiter : UInt8) : Scan → (line offset : Nat) → List UInt8 → List Extent
  | scan, line, offset, [] =>
    if scan.phase.betweenRecords then [] else [⟨(line, scan.record), offset, false⟩]
  | scan, line, offset, byte :: rest =>
    match scan.take delimiter byte with
    | (scan, true) =>
      ⟨(line, scan.record), offset + 1, true⟩ ::
        extents delimiter (start scan.phase scan.line) scan.line (offset + 1) rest
    | (scan, false) => extents delimiter scan line (offset + 1) rest

section Extents

variable {delimiter : UInt8} {scan after : Scan} {line offset : Nat} {bytes rest : List UInt8}

/-- A line end ends a record, and behind it the next one may start. -/
theorem lineEnd_of_step {phase after : Phase} {byte : UInt8}
    (ended : step delimiter phase byte = (after, .endRecord)) :
    (byte = carriageReturn ∨ byte = lineFeed) ∧ after.betweenRecords = true := by
  cases phase <;>
    simp only [step, recordStep, fieldStep, plainStep] at ended <;>
    grind [Phase.betweenRecords]

theorem step_of_take {byte : UInt8} (ended : scan.take delimiter byte = (after, true)) :
    step delimiter scan.phase byte = (after.phase, .endRecord) := by
  cases stepped : step delimiter scan.phase byte with
  | mk phase action =>
    simp only [take, stepped] at ended
    cases action with
    | endRecord => rw [← (Prod.mk.inj ended).1]
    | skip => simp at ended
    | keep => simp at ended
    | endField => simp at ended

theorem lineEnd_of_take {byte : UInt8} (ended : scan.take delimiter byte = (after, true)) :
    byte = carriageReturn ∨ byte = lineFeed :=
  (lineEnd_of_step (step_of_take ended)).1

theorem betweenRecords_of_block (ended : scan.block delimiter bytes = (after, rest, true)) :
    after.phase.betweenRecords = true := by
  induction bytes generalizing scan with
  | nil => simp [block] at ended
  | cons byte bytes ih =>
    rw [block] at ended
    cases taken : scan.take delimiter byte with
    | mk scan last =>
      rw [taken] at ended
      cases last with
      | true =>
        obtain ⟨rfl, -⟩ := Prod.mk.inj ended
        exact (lineEnd_of_step (step_of_take taken)).2
      | false => exact ih ended

/-- Where a record ends, the records behind it begin. -/
theorem extents_of_ended (ended : scan.block delimiter bytes = (after, rest, true)) :
    ∃ stop, stop + rest.length = offset + bytes.length ∧
      scan.extents delimiter line offset bytes =
        ⟨(line, after.record), stop, true⟩ ::
          (start after.phase after.line).extents delimiter after.line stop rest := by
  induction bytes generalizing scan offset with
  | nil => simp [block] at ended
  | cons byte bytes ih =>
    rw [block] at ended
    rw [extents]
    cases taken : scan.take delimiter byte with
    | mk scan last =>
      rw [taken] at ended
      cases last with
      | true =>
        obtain ⟨rfl, rest'⟩ := Prod.mk.inj ended
        obtain ⟨rfl, -⟩ := Prod.mk.inj rest'
        exact ⟨offset + 1, by simp only [List.length_cons]; omega, rfl⟩
      | false =>
        obtain ⟨stop, length, found⟩ := @ih scan (offset + 1) ended
        exact ⟨stop, by simp only [List.length_cons]; omega, found⟩

/-- A record that nothing terminates ends with the data. -/
theorem extents_of_unended (unended : scan.block delimiter bytes = (after, rest, false)) :
    scan.extents delimiter line offset bytes =
      if after.phase.betweenRecords then []
      else [⟨(line, after.record), offset + bytes.length, false⟩] := by
  induction bytes generalizing scan offset with
  | nil =>
    obtain ⟨rfl, -⟩ := Prod.mk.inj unended
    rfl
  | cons byte bytes ih =>
    rw [block] at unended
    rw [extents]
    cases taken : scan.take delimiter byte with
    | mk scan last =>
      rw [taken] at unended
      cases last with
      | true => simp at unended
      | false =>
        rw [List.length_cons, Nat.add_comm bytes.length 1, ← Nat.add_assoc]
        exact ih unended

/-- A record that a byte terminates ends behind a carriage return or a line feed. -/
theorem terminator_of_mem {last : Extent} (terminated : last.terminated = true)
    (member : last ∈ scan.extents delimiter line offset bytes) :
    ∃ place byte, last.stop = offset + place + 1 ∧ bytes[place]? = some byte ∧
      (byte = carriageReturn ∨ byte = lineFeed) := by
  induction bytes generalizing scan line offset with
  | nil =>
    rw [extents] at member
    split at member
    · simp at member
    · obtain rfl := List.mem_singleton.mp member
      simp at terminated
  | cons byte bytes ih =>
    have later {scan : Scan} {line : Nat}
        (member : last ∈ scan.extents delimiter line (offset + 1) bytes) :
        ∃ place other, last.stop = offset + place + 1 ∧ (byte :: bytes)[place]? = some other ∧
          (other = carriageReturn ∨ other = lineFeed) := by
      obtain ⟨place, other, stop, found, lineEnd⟩ := ih member
      exact ⟨place + 1, other, by omega, found, lineEnd⟩
    rw [extents] at member
    split at member
    · next after taken =>
      rcases List.mem_cons.mp member with rfl | member
      · exact ⟨0, byte, rfl, rfl, lineEnd_of_take taken⟩
      · exact later member
    · exact later member

/-- The records up to one that a byte terminates depend on the bytes up to its end only. The induction
is on the bytes; each of them is one that the other bytes share. -/
theorem extents_of_take {other : List UInt8} {front behind : List Extent} {last : Extent}
    (found : scan.extents delimiter line offset bytes = front ++ last :: behind)
    (terminated : last.terminated = true)
    (same : other.take (last.stop - offset) = bytes.take (last.stop - offset)) :
    ∃ behind', scan.extents delimiter line offset other = front ++ last :: behind' := by
  induction bytes generalizing scan line offset other front with
  | nil =>
    have member : last ∈ scan.extents delimiter line offset [] := by simp [found]
    rw [extents] at member
    split at member
    · simp at member
    · obtain rfl := List.mem_singleton.mp member
      simp at terminated
  | cons byte bytes ih =>
    have member : last ∈ scan.extents delimiter line offset (byte :: bytes) := by simp [found]
    obtain ⟨more, -, stop, -⟩ := terminator_of_mem terminated member
    have length : last.stop - offset = more + 1 := by omega
    have left : last.stop - (offset + 1) = more := by omega
    cases other with
    | nil => simp [length] at same
    | cons head tail =>
      rw [length, List.take_succ_cons, List.take_succ_cons, List.cons.injEq] at same
      obtain ⟨rfl, same⟩ := same
      rw [extents] at found ⊢
      cases taken : scan.take delimiter head with
      | mk after ended =>
        simp only [taken] at found
        cases ended with
        | false => exact ih found (by rw [left, same])
        | true =>
          dsimp only at found ⊢
          cases front with
          | nil =>
            obtain ⟨rfl, -⟩ := List.cons.inj found
            exact ⟨_, rfl⟩
          | cons first front =>
            obtain ⟨rfl, later⟩ := List.cons.inj found
            obtain ⟨behind', again⟩ := ih later (by rw [left, same])
            exact ⟨behind', congrArg (List.cons _) again⟩

end Extents

end Scan

/-- All blocks hold at most `capacity` bytes and at least one, and all but the last are full. -/
def Cut (capacity : Nat) : List (List UInt8) → Prop
  | [] => True
  | block :: later =>
    0 < block.length ∧ block.length ≤ capacity ∧ (later ≠ [] → block.length = capacity) ∧
      Cut capacity later

theorem cut_blocks (capacity fuel : Nat) (data : List UInt8) :
    Cut capacity (blocks capacity fuel data) := by
  induction fuel generalizing data with
  | zero => exact trivial
  | succ fuel ih =>
    cases data with
    | nil => exact trivial
    | cons byte rest =>
      have unfolded : blocks capacity (fuel + 1) (byte :: rest) =
          if capacity = 0 then []
          else (byte :: rest).take capacity :: blocks capacity fuel ((byte :: rest).drop capacity) :=
        rfl
      rw [unfolded]
      split
      · exact trivial
      · refine ⟨?_, List.length_take_le _ _, fun more => ?_, ih _⟩
        · simp only [List.length_take, List.length_cons]
          omega
        · -- A block follows, so the data go on behind this one.
          refine List.length_take_of_le (Nat.le_of_not_lt fun short => more ?_)
          rw [List.drop_of_length_le (Nat.le_of_lt short)]
          cases fuel <;> rfl

/-- Blocks have been fetched up to the one that is being consumed: `full` full ones and this one, of
which the given bytes are left. -/
structure Fetching (capacity total full fetched : Nat) (block : List UInt8)
    (later : List (List UInt8)) : Prop where
  begun : capacity * full < fetched
  within : capacity * full + block.length ≤ fetched
  bounded : fetched ≤ capacity * (full + 1)
  whole : later ≠ [] → fetched = capacity * (full + 1)
  cut : Cut capacity later
  total : fetched + later.flatten.length = total

/-- The next block is fetched behind full ones. -/
theorem Fetching.fetch {capacity total full fetched : Nat} {block next : List UInt8}
    {later : List (List UInt8)}
    (fetching : Fetching capacity total full fetched block (next :: later)) :
    Fetching capacity total (full + 1) (fetched + next.length) next later := by
  obtain ⟨some, most, whole, cut⟩ := fetching.cut
  have full' := fetching.whole (List.cons_ne_nil next later)
  have total := fetching.total
  rw [List.flatten_cons, List.length_append, ← Nat.add_assoc] at total
  have one : capacity * (full + 1 + 1) = capacity * (full + 1) + capacity := Nat.mul_succ _ _
  exact ⟨by omega, by omega, by omega, fun more => by have := whole more; omega, cut, total⟩

/-- Some bytes of the fetched block are consumed. -/
theorem Fetching.consume {capacity total full fetched : Nat} {block rest : List UInt8}
    {later : List (List UInt8)} (fetching : Fetching capacity total full fetched block later)
    (shorter : rest.length < block.length) :
    Fetching capacity total full fetched rest later ∧ capacity * full + rest.length < fetched := by
  have within := fetching.within
  exact ⟨{ fetching with within := by omega }, by omega⟩

namespace Cursor

/-- The records from a position on, which stands at an offset of the data. -/
def extents (cursor : Cursor) (offset : Nat) : List Extent :=
  cursor.scan.extents cursor.delimiter cursor.line offset cursor.bytes

/-- The position stands at an offset of `total` bytes, and blocks have been fetched up to there. -/
structure Stands (capacity total full offset : Nat) (cursor : Cursor) : Prop where
  place : offset + cursor.bytes.length = total
  fetching : Fetching capacity total full cursor.fetched cursor.block cursor.later

variable {capacity total full offset : Nat} {cursor after : Cursor}

/-- At the end of the data there are no records. -/
theorem extents_of_end (ended : cursor.next = (none, after)) : cursor.extents offset = [] := by
  obtain ⟨_, found, -⟩ := cursor.next_eq_finish
  rw [ended] at found
  have none := (Prod.mk.inj found).1
  rw [Scan.finish] at none
  rw [extents]
  cases scanned : cursor.scan.block cursor.delimiter cursor.bytes with
  | mk scan outcome =>
    obtain ⟨rest, last⟩ := outcome
    simp only [scanned] at none
    cases last with
    | true => simp at none
    | false =>
      have between : scan.phase.betweenRecords = true := by simpa using none.symm
      rw [Scan.extents_of_unended scanned, if_pos between]

/-- The record that is read next is the first of those from the position on. -/
theorem extents_of_record {record : Record} (found : cursor.next = (some record, after))
    (offset : Nat) :
    ∃ stop terminated, stop + after.bytes.length = offset + cursor.bytes.length ∧
      cursor.extents offset = ⟨(cursor.line, record), stop, terminated⟩ :: after.extents stop := by
  obtain ⟨_, read, delimiter, afterReturn, line, bytes⟩ := cursor.next_eq_finish
  rw [found] at read
  obtain ⟨record', rfl⟩ := Prod.mk.inj read
  rw [Scan.finish] at record' afterReturn line bytes
  simp only [extents]
  cases scanned : cursor.scan.block cursor.delimiter cursor.bytes with
  | mk scan outcome =>
    obtain ⟨rest, last⟩ := outcome
    rw [scanned] at record' afterReturn line bytes
    cases last with
    | true =>
      dsimp only at record' afterReturn line bytes
      have again : after.scan = Scan.start scan.phase scan.line := by
        have between := Scan.betweenRecords_of_block scanned
        rw [Cursor.scan, afterReturn, line]
        cases phase : scan.phase <;> first | rfl | simp [phase, Phase.betweenRecords] at between
      obtain ⟨stop, place, records⟩ := Scan.extents_of_ended scanned
      rw [again, delimiter, line, bytes, Option.some.inj record']
      exact ⟨stop, true, place, records⟩
    | false =>
      by_cases between : scan.phase.betweenRecords = true
      · simp [between] at record'
      · have again : after.scan.phase.betweenRecords = true := by
          rw [Cursor.scan]
          cases after.afterReturn <;> rfl
        obtain rfl : record = scan.record := by simpa [between] using record'
        rw [bytes, Scan.extents_of_unended scanned, if_neg between]
        refine ⟨offset + cursor.bytes.length, false, rfl, ?_⟩
        rw [Scan.extents, if_pos again]

/-- The records are the same whether blocks are read or the bytes as a whole. -/
theorem records_eq_extents (cursor : Cursor) (offset : Nat) :
    cursor.records = (cursor.extents offset).map Extent.entry := by
  induction pending : cursor.records generalizing cursor offset with
  | nil =>
    obtain ⟨after, ended⟩ := next_of_records_nil pending
    rw [extents_of_end ended]
    rfl
  | cons first rest ih =>
    obtain ⟨after, found, line, remaining⟩ := next_of_records_cons pending
    obtain ⟨stop, terminated, -, records⟩ := extents_of_record found offset
    rw [records, List.map_cons, ← ih after stop remaining, ← line]

/-- Reading a record fetches only blocks of which it consumes a byte. -/
theorem readBlocks_fetching {delimiter : UInt8} {scan : Scan} {fetched : Nat} {block : List UInt8}
    {later : List (List UInt8)} {record : Record}
    (fetching : Fetching capacity total full fetched block later)
    (found : readBlocks delimiter scan fetched block later = (some record, after)) :
    ∃ full, Fetching capacity total full after.fetched after.block after.later ∧
      capacity * full + after.block.length < after.fetched := by
  induction later generalizing scan fetched block full with
  | nil =>
    rw [readBlocks] at found
    split at found
    · next scan rest ended =>
      obtain ⟨-, rfl⟩ := Prod.mk.inj found
      exact ⟨full, fetching.consume (Scan.block_true ended)⟩
    · split at found
      · simp at found
      · obtain ⟨-, rfl⟩ := Prod.mk.inj found
        have begun := fetching.begun
        exact ⟨full, { fetching with within := Nat.le_of_lt begun }, begun⟩
  | cons next later ih =>
    rw [readBlocks] at found
    split at found
    · next scan rest ended =>
      obtain ⟨-, rfl⟩ := Prod.mk.inj found
      exact ⟨full, fetching.consume (Scan.block_true ended)⟩
    · exact ih fetching.fetch found

/-- Behind a record the position stands where the record ends, which is in the last block fetched. -/
theorem Stands.next (stands : cursor.Stands capacity total full offset) {record : Record}
    (found : cursor.next = (some record, after)) :
    ∃ last full, cursor.extents offset = last :: after.extents last.stop ∧
      after.Stands capacity total full last.stop ∧ capacity * full < last.stop := by
  obtain ⟨stop, terminated, place, records⟩ := extents_of_record found offset
  obtain ⟨full, fetching, inside⟩ := readBlocks_fetching stands.fetching found
  have here : stop + after.bytes.length = total := place.trans stands.place
  refine ⟨⟨(cursor.line, record), stop, terminated⟩, full, records, ⟨here, fetching⟩, ?_⟩
  have total := fetching.total
  rw [bytes, List.length_append] at here
  dsimp only
  omega

/-- The position stands behind one of the records, and the last block fetched holds its end. -/
def Behind (extents : List Extent) (capacity total passed : Nat) (cursor : Cursor) : Prop :=
  ∃ last full, extents.drop passed = last :: cursor.extents last.stop ∧
    cursor.Stands capacity total full last.stop ∧ capacity * full < last.stop

theorem Behind.next {extents : List Extent} {passed : Nat}
    (behind : cursor.Behind extents capacity total passed) {record : Record}
    (found : cursor.next = (some record, after)) :
    after.Behind extents capacity total (passed + 1) := by
  obtain ⟨last, full, records, stands, -⟩ := behind
  obtain ⟨following, full, later, stands, inside⟩ := stands.next found
  refine ⟨following, full, ?_, stands, inside⟩
  rw [← List.drop_drop, records, List.drop_one, List.tail_cons, later]

/-- Behind a record no block is fetched but those that hold it and what comes before. -/
theorem Behind.fetched_le {extents : List Extent} {passed : Nat} (positive : 0 < capacity)
    (behind : cursor.Behind extents capacity total passed) {last : Extent}
    (found : extents[passed]? = some last) :
    cursor.fetched ≤ capacity * (last.stop ⌈/⌉ capacity) := by
  obtain ⟨other, full, records, stands, inside⟩ := behind
  have same : last = other := by
    have first := congrArg List.head? records
    rw [List.head?_drop, found] at first
    exact Option.some.inj first
  have more : full + 1 ≤ last.stop ⌈/⌉ capacity := by
    rw [same, Nat.succ_le_iff, ← Nat.not_le, ceilDiv_le_iff_le_mul positive]
    exact Nat.not_le_of_lt inside
  exact stands.fetching.bounded.trans (Nat.mul_le_mul_left capacity more)

end Cursor

/-- The records of data, the header included, and where they end. A byte order mark that the first
block holds whole is no part of them, and a first block that is nothing else is the end of the
data. -/
def extentsOf (delimiter : UInt8) (capacity : Nat) (data : List UInt8) : List Extent :=
  if data.take capacity = Utf8.mark then []
  else if Utf8.mark <+: data.take capacity then
    (Scan.start .recordStart 1).extents delimiter 1 3 (data.drop 3)
  else (Scan.start .recordStart 1).extents delimiter 1 0 data

section Start

variable {delimiter : UInt8} {capacity : Nat} {data : List UInt8}

/-- The first block is fetched before anything is consumed. -/
theorem Fetching.first {later : List (List UInt8)} {body : List UInt8}
    (cut : blocks capacity data.length data = data.take capacity :: later)
    (rest : later.flatten = data.drop capacity)
    (part : body.length ≤ (data.take capacity).length) :
    Fetching capacity data.length 0 (data.take capacity).length body later := by
  have pieces := cut_blocks capacity data.length data
  rw [cut] at pieces
  obtain ⟨some, most, whole, pieces⟩ := pieces
  refine ⟨by omega, by omega, by omega, fun more => by rw [whole more]; omega, pieces, ?_⟩
  rw [rest, ← List.length_append, List.take_append_drop]

/-- Reading begins before the first of the records, or there are none. -/
theorem Cursor.start?_extents (delimiter : UInt8) (positive : 0 < capacity) (data : List UInt8) :
    start? delimiter capacity data = none ∧ extentsOf delimiter capacity data = [] ∨
      ∃ cursor offset, start? delimiter capacity data = some cursor ∧
        cursor.extents offset = extentsOf delimiter capacity data ∧
        cursor.Stands capacity data.length 0 offset := by
  by_cases empty : data = []
  · subst empty
    exact .inl ⟨rfl, by simp [extentsOf, Scan.extents, Scan.start, Phase.betweenRecords, Utf8.mark]⟩
  · obtain ⟨later, cut, rest⟩ := blocks_eq_cons positive empty
    by_cases alone : data.take capacity = Utf8.mark
    · exact .inl ⟨by rw [start?, cut]; exact if_pos alone, if_pos alone⟩
    · right
      by_cases marked : Utf8.mark <+: data.take capacity
      · have long : 3 ≤ (data.take capacity).length := marked.length_le
        refine ⟨⟨delimiter, false, 1, (data.take capacity).drop 3, later, _⟩, 3, ?_, ?_, ?_,
          .first cut rest (List.length_drop ▸ Nat.sub_le _ _)⟩
        · simp only [start?, cut, if_neg alone, List.isPrefixOf_iff_prefix, if_pos marked]
        · rw [extentsOf, if_neg alone, if_pos marked, extents, bytes, rest,
            ← List.drop_append_of_le_length long, List.take_append_drop]
          rfl
        · rw [bytes, rest, ← List.drop_append_of_le_length long, List.take_append_drop,
            List.length_drop]
          simp only [List.length_take] at long
          omega
      · refine ⟨⟨delimiter, false, 1, data.take capacity, later, _⟩, 0, ?_, ?_, ?_,
          .first cut rest (Nat.le_refl _)⟩
        · simp only [start?, cut, if_neg alone, List.isPrefixOf_iff_prefix, if_neg marked]
        · rw [extentsOf, if_neg alone, if_neg marked, extents, bytes, rest, List.take_append_drop]
          rfl
        · rw [bytes, rest, List.take_append_drop, Nat.zero_add]

/-- Reading in blocks finds the records of the data. -/
theorem recordsOf_eq_extentsOf (delimiter : UInt8) (positive : 0 < capacity) (data : List UInt8) :
    recordsOf delimiter capacity data = (extentsOf delimiter capacity data).map Extent.entry := by
  rw [recordsOf]
  rcases Cursor.start?_extents delimiter positive data with
    ⟨ended, none⟩ | ⟨cursor, offset, started, records, -⟩
  · rw [ended, none]
    rfl
  · rw [started, ← records]
    exact cursor.records_eq_extents offset

/-- Behind the header the reading position stands behind the first of the records. -/
theorem Cursor.behind_header (positive : 0 < capacity) {header : Record} {start cursor : Cursor}
    (started : start? delimiter capacity data = some start)
    (found : start.next = (some header, cursor)) :
    cursor.Behind (extentsOf delimiter capacity data) capacity data.length 0 := by
  rcases start?_extents delimiter positive data with
    ⟨ended, -⟩ | ⟨other, offset, same, records, stands⟩
  · rw [ended] at started
    contradiction
  · obtain rfl : start = other := Option.some.inj (started.symm.trans same)
    obtain ⟨first, full, later, stands, inside⟩ := stands.next found
    exact ⟨first, full, by rw [List.drop_zero, ← records, later], stands, inside⟩

/-- Data that share at least three bytes begin with a mark alike. -/
theorem mark_prefix_of_take {other : List UInt8} {stop : Nat} (long : 3 ≤ stop)
    (same : other.take stop = data.take stop) (marked : Utf8.mark <+: data.take capacity) :
    Utf8.mark <+: other.take capacity := by
  have capacity : 3 ≤ capacity := marked.length_le.trans (List.length_take_le _ _)
  have three : other.take 3 = data.take 3 := by
    rw [← Nat.min_eq_left long, ← List.take_take, same, List.take_take]
  rw [List.prefix_take_iff] at marked ⊢
  refine ⟨?_, capacity⟩
  rw [List.prefix_iff_eq_take.mp marked.1]
  exact three ▸ List.take_prefix 3 other

theorem getElem?_of_take {other : List UInt8} {place stop : Nat}
    (same : other.take stop = data.take stop) (inside : place < stop) :
    other[place]? = data[place]? := by
  rw [← List.getElem?_take_of_lt inside, same, List.getElem?_take_of_lt inside]

theorem lineEnd_not_mem_mark {byte : UInt8} (lineEnd : byte = carriageReturn ∨ byte = lineFeed) :
    byte ∉ Utf8.mark := by
  rcases lineEnd with rfl | rfl <;> decide

/-- Data that begin with the bytes up to the end of a record that a byte terminates hold this record
and those before it, at the same places. -/
theorem extentsOf_of_take {other : List UInt8} {front behind : List Extent} {last : Extent}
    (found : extentsOf delimiter capacity data = front ++ last :: behind)
    (terminated : last.terminated = true) (same : other.take last.stop = data.take last.stop) :
    ∃ behind', extentsOf delimiter capacity other = front ++ last :: behind' := by
  have member : last ∈ extentsOf delimiter capacity data := by simp [found]
  unfold extentsOf at found member
  split at found
  · simp at found
  · next more =>
    rw [if_neg more] at member
    split at found
    · next marked =>
      rw [if_pos marked] at member
      obtain ⟨place, byte, stop, here, -⟩ := Scan.terminator_of_mem terminated member
      have begins := mark_prefix_of_take (by omega) same marked
      -- The line end is a byte of the other data as well, behind the mark.
      have alone : other.take capacity ≠ Utf8.mark := by
        have long : Utf8.mark.length < (data.take capacity).length :=
          Nat.lt_of_le_of_ne marked.length_le fun equal => more (marked.eq_of_length equal).symm
        rw [List.getElem?_drop, ← getElem?_of_take same (by omega)] at here
        have inside := (List.getElem?_eq_some_iff.mp here).1
        intro mark
        have short := congrArg List.length mark
        simp only [List.length_take, Utf8.mark, List.length_cons, List.length_nil] at long short
        omega
      rw [extentsOf, if_neg alone, if_pos begins]
      refine Scan.extents_of_take found terminated ?_
      rw [List.take_drop, List.take_drop, Nat.add_sub_cancel' (by omega), same]
    · next unmarked =>
      rw [if_neg unmarked] at member
      obtain ⟨place, byte, stop, here, lineEnd⟩ := Scan.terminator_of_mem terminated member
      have bare : ¬ Utf8.mark <+: other.take capacity := by
        intro begins
        by_cases long : 3 ≤ last.stop
        · exact unmarked (mark_prefix_of_take long same.symm begins)
        · -- The line end would be one of the bytes of the mark.
          have inside : place < Utf8.mark.length := by
            simp only [Utf8.mark, List.length_cons, List.length_nil]
            omega
          have shared := (begins.trans (List.take_prefix capacity other)).getElem inside
          rw [← getElem?_of_take same (by omega), List.getElem?_eq_some_iff] at here
          obtain ⟨_, rfl⟩ := here
          rw [← shared] at lineEnd
          exact lineEnd_not_mem_mark lineEnd (List.getElem_mem inside)
      have alone : other.take capacity ≠ Utf8.mark := fun same => bare (same ▸ List.prefix_rfl)
      rw [extentsOf, if_neg alone, if_neg bare]
      exact Scan.extents_of_take found terminated same

end Start

end Csv

end Medals
