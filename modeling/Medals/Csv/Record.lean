import Medals.Text.Utf8

/-!
# Records of delimited text

A record is a sequence of fields of raw bytes. Records end at a carriage return, a line feed or
both; empty lines between records are skipped. A field that begins with a quote runs to the closing
quote, a doubled quote standing for one; what follows the closing quote is appended to the field.
A quote inside an unquoted field is literal, and data that end inside quotes end the field.

The source is fetched block by block. `Cursor.next` reads one record and fetches a block only when
all bytes before it have been consumed.
-/

namespace Medals

namespace Csv

/-- The double quote. -/
def quote : UInt8 := 0x22

def carriageReturn : UInt8 := 0x0d

def lineFeed : UInt8 := 0x0a

/-- Where the scanner stands between bytes. -/
inductive Phase where
  /-- Before a record; line ends are skipped here. -/
  | recordStart
  /-- After a carriage return that ended a record; a line feed still belongs to it. -/
  | afterReturn
  /-- After a delimiter. -/
  | fieldStart
  /-- In an unquoted field, or after the closing quote of a quoted one. -/
  | plain
  /-- Between quotes. -/
  | quoted
  /-- After a quote that closes the field unless it is doubled. -/
  | quoteSeen
deriving DecidableEq, Repr, Inhabited

namespace Phase

/-- Between records: the end of the data here ends no record. -/
def betweenRecords : Phase → Bool
  | recordStart => true
  | afterReturn => true
  | _ => false

end Phase

/-- What a byte contributes to the record. -/
inductive Action where
  | skip
  | keep
  | endField
  | endRecord
deriving DecidableEq, Repr

/-- A byte in an unquoted field. -/
def plainStep (delimiter byte : UInt8) : Phase × Action :=
  if byte = delimiter then (.fieldStart, .endField)
  else if byte = carriageReturn then (.afterReturn, .endRecord)
  else if byte = lineFeed then (.recordStart, .endRecord)
  else (.plain, .keep)

/-- The first byte of a field. -/
def fieldStep (delimiter byte : UInt8) : Phase × Action :=
  if byte = quote then (.quoted, .skip) else plainStep delimiter byte

/-- The first byte of a record, or of an empty line. -/
def recordStep (delimiter byte : UInt8) : Phase × Action :=
  if byte = carriageReturn ∨ byte = lineFeed then (.recordStart, .skip)
  else fieldStep delimiter byte

/-- A byte in any phase. -/
def step (delimiter : UInt8) : Phase → UInt8 → Phase × Action
  | .recordStart, byte => recordStep delimiter byte
  | .afterReturn, byte =>
    if byte = lineFeed then (.recordStart, .skip) else recordStep delimiter byte
  | .fieldStart, byte => fieldStep delimiter byte
  | .plain, byte => plainStep delimiter byte
  | .quoted, byte => if byte = quote then (.quoteSeen, .skip) else (.quoted, .keep)
  | .quoteSeen, byte => if byte = quote then (.quoted, .keep) else plainStep delimiter byte

/-- The raw fields of a record. -/
abbrev Record := List (List UInt8)

/-- A record that is being read. -/
structure Scan where
  phase : Phase
  /-- One more than the line feeds consumed so far. -/
  line : Nat
  /-- The bytes of the current field, last one first. -/
  field : List UInt8
  /-- The finished fields, last one first. -/
  fields : List (List UInt8)
deriving DecidableEq, Repr, Inhabited

namespace Scan

/-- Nothing read of the next record. -/
def start (phase : Phase) (line : Nat) : Scan :=
  ⟨phase, line, [], []⟩

/-- The fields, the current one included. -/
def record (scan : Scan) : Record :=
  (scan.field.reverse :: scan.fields).reverse

/-- Consume a byte; the flag tells that it ended the record. -/
def take (delimiter : UInt8) (scan : Scan) (byte : UInt8) : Scan × Bool :=
  let line := if byte = lineFeed then scan.line + 1 else scan.line
  match step delimiter scan.phase byte with
  | (phase, .skip) => (⟨phase, line, scan.field, scan.fields⟩, false)
  | (phase, .keep) => (⟨phase, line, byte :: scan.field, scan.fields⟩, false)
  | (phase, .endField) => (⟨phase, line, [], scan.field.reverse :: scan.fields⟩, false)
  | (phase, .endRecord) => (⟨phase, line, scan.field, scan.fields⟩, true)

/-- Consume bytes up to the end of the record or of the block: the scan, the bytes left over, and
whether the record ended. -/
def block (delimiter : UInt8) : Scan → List UInt8 → Scan × List UInt8 × Bool
  | scan, [] => (scan, [], false)
  | scan, byte :: rest =>
    match scan.take delimiter byte with
    | (scan, true) => (scan, rest, true)
    | (scan, false) => block delimiter scan rest

end Scan

/-- The reading position in a source, always between two records. -/
structure Cursor where
  delimiter : UInt8
  /-- The last record ended with a carriage return, to which a line feed may still belong. -/
  afterReturn : Bool
  /-- One more than the line feeds consumed so far. -/
  line : Nat
  /-- The bytes of the fetched block that are still to be consumed. -/
  block : List UInt8
  /-- The blocks still to be fetched. -/
  later : List (List UInt8)
  /-- How many bytes have been fetched. -/
  fetched : Nat
deriving Repr, Inhabited

namespace Cursor

/-- How many bytes are still to be consumed. -/
def remaining (cursor : Cursor) : Nat :=
  cursor.block.length + cursor.later.flatten.length

/-- The position after a scan. -/
def afterScan (delimiter : UInt8) (scan : Scan) (fetched : Nat) (block : List UInt8)
    (later : List (List UInt8)) : Cursor :=
  ⟨delimiter, scan.phase == .afterReturn, scan.line, block, later, fetched⟩

/-- Read on through the given block and the later ones. At the end of the data there is a last
record if anything of one has been read. -/
def readBlocks (delimiter : UInt8) (scan : Scan) (fetched : Nat) (block : List UInt8) :
    List (List UInt8) → Option Record × Cursor
  | [] =>
    match scan.block delimiter block with
    | (scan, rest, true) => (some scan.record, afterScan delimiter scan fetched rest [])
    | (scan, _, false) =>
      if scan.phase.betweenRecords then (none, afterScan delimiter scan fetched [] [])
      else (some scan.record, afterScan delimiter scan fetched [] [])
  | next :: later =>
    match scan.block delimiter block with
    | (scan, rest, true) => (some scan.record, afterScan delimiter scan fetched rest (next :: later))
    | (scan, _, false) => readBlocks delimiter scan (fetched + next.length) next later

/-- Read one record, or find the end of the data. -/
def next (cursor : Cursor) : Option Record × Cursor :=
  readBlocks cursor.delimiter
    (Scan.start (if cursor.afterReturn then .afterReturn else .recordStart) cursor.line)
    cursor.fetched cursor.block cursor.later

end Cursor

/-- Cut data into blocks of `capacity` bytes, the last one shorter. Nothing can be fetched through
a buffer without capacity. The fuel is the length of the data. -/
def blocks (capacity : Nat) : (fuel : Nat) → List UInt8 → List (List UInt8)
  | 0, _ => []
  | _, [] => []
  | fuel + 1, data =>
    if capacity = 0 then [] else data.take capacity :: blocks capacity fuel (data.drop capacity)

/-- The position before the first record. A byte order mark that the first block holds whole is
dropped, and a first block that is nothing else is taken for the end of the data. -/
def Cursor.start? (delimiter : UInt8) (capacity : Nat) (data : List UInt8) : Option Cursor :=
  match blocks capacity data.length data with
  | [] => none
  | first :: later =>
    if first = Utf8.mark then none
    else
      let body := if Utf8.mark.isPrefixOf first then first.drop 3 else first
      some ⟨delimiter, false, 1, body, later, first.length⟩

section Progress

theorem Scan.block_false {delimiter : UInt8} {scan scan' : Scan} {bytes rest : List UInt8}
    (unfinished : scan.block delimiter bytes = (scan', rest, false)) :
    rest = [] ∧ (bytes = [] → scan' = scan) := by
  induction bytes generalizing scan with
  | nil => simp_all [Scan.block]
  | cons byte bytes ih =>
    rw [Scan.block] at unfinished
    split at unfinished
    · simp at unfinished
    · exact ⟨(ih unfinished).1, by simp⟩

theorem Scan.block_true {delimiter : UInt8} {scan scan' : Scan} {bytes rest : List UInt8}
    (finished : scan.block delimiter bytes = (scan', rest, true)) :
    rest.length < bytes.length := by
  induction bytes generalizing scan with
  | nil => simp [Scan.block] at finished
  | cons byte bytes ih =>
    rw [Scan.block] at finished
    split at finished
    · simp only [Prod.mk.injEq, and_true] at finished
      simp [← finished.2]
    · have := ih finished
      simp only [List.length_cons]
      omega

theorem Cursor.readBlocks_remaining {delimiter : UInt8} {scan : Scan} {fetched : Nat}
    {block : List UInt8} {later : List (List UInt8)} {record : Record} {after : Cursor}
    (found : readBlocks delimiter scan fetched block later = (some record, after)) :
    after.remaining + (if scan.phase.betweenRecords then 1 else 0) ≤
      block.length + later.flatten.length := by
  induction later generalizing scan fetched block with
  | nil =>
    rw [readBlocks] at found
    split at found
    · rename_i blockEq
      have := Scan.block_true blockEq
      simp only [Prod.mk.injEq, Option.some.injEq] at found
      rw [← found.2]
      simp only [remaining, afterScan, List.flatten_nil, List.length_nil]
      split <;> omega
    · rename_i blockEq
      split at found
      · simp at found
      · rename_i started
        simp only [Prod.mk.injEq, Option.some.injEq] at found
        rw [← found.2]
        cases block with
        | nil =>
          rw [(Scan.block_false blockEq).2 rfl] at started
          simp [started, remaining, afterScan]
        | cons byte rest =>
          simp only [remaining, afterScan, List.length_nil, List.flatten_nil, List.length_cons]
          split <;> omega
  | cons next later ih =>
    rw [readBlocks] at found
    split at found
    · rename_i blockEq
      have := Scan.block_true blockEq
      simp only [Prod.mk.injEq, Option.some.injEq] at found
      rw [← found.2]
      simp only [remaining, afterScan, List.flatten_cons, List.length_append]
      split <;> omega
    · rename_i blockEq
      have bound := ih found
      simp only [List.flatten_cons, List.length_append]
      cases block with
      | nil =>
        rw [(Scan.block_false blockEq).2 rfl] at bound
        simpa using bound
      | cons byte rest =>
        simp only [List.length_cons]
        split <;> split at bound <;> omega

/-- A record takes at least one byte. -/
theorem Cursor.next_remaining_lt {cursor after : Cursor} {record : Record}
    (found : cursor.next = (some record, after)) : after.remaining < cursor.remaining := by
  have bound := readBlocks_remaining found
  have between : (Scan.start (if cursor.afterReturn then .afterReturn else .recordStart)
      cursor.line).phase.betweenRecords = true := by
    cases cursor.afterReturn <;> rfl
  rw [between] at bound
  exact bound

end Progress

end Csv

end Medals
