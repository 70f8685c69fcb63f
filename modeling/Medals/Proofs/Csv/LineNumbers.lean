import Medals.Proofs.Csv.Extent
import Medals.Proofs.Csv.Limit
import Mathlib.Data.List.Count
import Mathlib.Data.List.TakeWhile

/-!
# The line that a fault names

A record stands on the line of its first byte (`Csv.lineAt`), whichever way the lines before it end.
A fault names another number: one more than the line feeds consumed when reading the record began
(`Csv.line_of_extentsOf`), which is behind the byte that terminated the record before.
`RowReader.line_of_fault` tells the two apart for all data. They are one line only for a record that
comes directly behind the one before, when no carriage return in front of it stands alone.
-/

namespace Medals

/-- The line that a fault of a record names. -/
def Fault.line? : Fault → Option Nat
  | .malformedRow line _ _ => some line
  | .invalidUtf8 line _ => some line
  | _ => none

namespace Csv

theorem line?_reportOf (width : Nat) (entry : LinedRecord) :
    (reportOf width entry).line? = some entry.1 := by
  unfold reportOf
  split <;> rfl

def isLineEnd (byte : UInt8) : Bool :=
  byte == carriageReturn || byte == lineFeed

theorem isLineEnd_iff {byte : UInt8} :
    isLineEnd byte = true ↔ byte = carriageReturn ∨ byte = lineFeed := by
  simp [isLineEnd]

/-- At the place there is a carriage return without a line feed behind it. -/
def LoneReturn (data : List UInt8) (place : Nat) : Prop :=
  data[place]? = some carriageReturn ∧ data[place + 1]? ≠ some lineFeed

/-- At the place a line ends: there is a line feed, or a carriage return that stands alone. -/
def EndsLine (data : List UInt8) (place : Nat) : Prop :=
  data[place]? = some lineFeed ∨ LoneReturn data place

instance (data : List UInt8) : DecidablePred (LoneReturn data) := fun _ =>
  inferInstanceAs (Decidable (_ ∧ _))

instance (data : List UInt8) : DecidablePred (EndsLine data) := fun _ =>
  inferInstanceAs (Decidable (_ ∨ _))

/-- The line on which an offset stands. -/
def lineAt (data : List UInt8) (offset : Nat) : Nat :=
  1 + (List.range offset).countP (EndsLine data)

/-- The offset of the first byte of the record that is read from an offset on: the line ends there
are passed over. -/
def firstByte (data : List UInt8) (offset : Nat) : Nat :=
  offset + ((data.drop offset).takeWhile isLineEnd).length

section Counting

variable (data : List UInt8)

theorem countP_range_getElem? (byte : UInt8) (offset : Nat) :
    ((List.range offset).countP fun place => data[place]? = some byte) =
      (data.take offset).count byte := by
  induction offset with
  | zero => rfl
  | succ offset ih =>
    rw [List.range_succ, List.countP_append, ih, List.take_add_one, List.count_append]
    cases found : data[offset]? with
    | none => simp [found]
    | some other => simp [found, List.count_singleton]

/-- Lines end with a line feed or with a carriage return that stands alone, and not with both. -/
theorem countP_endsLine (offset : Nat) :
    (List.range offset).countP (EndsLine data) =
      (data.take offset).count lineFeed + (List.range offset).countP (LoneReturn data) := by
  rw [← countP_range_getElem?]
  induction offset with
  | zero => rfl
  | succ offset ih =>
    rw [List.range_succ, List.countP_append, List.countP_append, List.countP_append, ih]
    by_cases feed : data[offset]? = some lineFeed
    · have apart : ¬ LoneReturn data offset := fun alone =>
        absurd (feed.symm.trans alone.1) (by decide)
      simp [EndsLine, feed, apart, Nat.add_right_comm]
    · simp [EndsLine, feed, Nat.add_assoc]

/-- Where an offset stands, given the line feeds before an earlier one. -/
theorem lineAt_add (offset more : Nat) :
    lineAt data (offset + more) =
      1 + (data.take offset).count lineFeed + ((data.drop offset).take more).count lineFeed +
        (List.range (offset + more)).countP (LoneReturn data) := by
  rw [lineAt, countP_endsLine, List.take_add, List.count_append]
  omega

/-- Where the first byte of a record stands, given the line feeds before the offset from which it is
read. -/
theorem lineAt_firstByte (offset : Nat) :
    lineAt data (firstByte data offset) =
      1 + (data.take offset).count lineFeed +
        ((data.drop offset).takeWhile isLineEnd).count lineFeed +
        (List.range (firstByte data offset)).countP (LoneReturn data) := by
  rw [firstByte, lineAt_add,
    ← List.prefix_iff_eq_take.mp (List.takeWhile_prefix (l := data.drop offset) isLineEnd)]

/-- No line feed is missed exactly if no line end is passed over and no carriage return stands alone:
the last line end that is passed over would be one of both. -/
theorem lineAt_firstByte_eq_iff {offset : Nat} {byte : UInt8}
    (first : data[firstByte data offset]? = some byte) (inside : isLineEnd byte = false) :
    1 + (data.take offset).count lineFeed = lineAt data (firstByte data offset) ↔
      firstByte data offset = offset ∧ ∀ place < firstByte data offset, ¬ LoneReturn data place := by
  have alone : (List.range (firstByte data offset)).countP (LoneReturn data) = 0 ↔
      ∀ place < firstByte data offset, ¬ LoneReturn data place := by
    simp [List.countP_eq_zero]
  rw [lineAt_firstByte, ← alone]
  constructor
  · intro same
    refine ⟨?_, by omega⟩
    have noFeed : ((data.drop offset).takeWhile isLineEnd).count lineFeed = 0 := by omega
    have noReturn := alone.mp (by omega)
    rcases List.eq_nil_or_concat ((data.drop offset).takeWhile isLineEnd) with
      none | ⟨front, last, skipped⟩
    · rw [firstByte, none, List.length_nil, Nat.add_zero]
    · have member : last ∈ (data.drop offset).takeWhile isLineEnd := by simp [skipped]
      obtain rfl : last = carriageReturn := by
        refine (isLineEnd_iff.mp (List.mem_takeWhile_imp member)).resolve_right ?_
        rintro rfl
        exact List.count_eq_zero.mp noFeed member
      have next : firstByte data offset = offset + front.length + 1 := by
        simp [firstByte, skipped, Nat.add_assoc]
      have found : data[offset + front.length]? = some carriageReturn := by
        rw [← List.getElem?_drop, ← List.takeWhile_append_dropWhile (p := isLineEnd)
          (l := data.drop offset), skipped]
        simp
      refine absurd ⟨found, ?_⟩ (noReturn (offset + front.length) (by omega))
      rw [← next, first]
      rintro feed
      simp [Option.some.inj feed, isLineEnd] at inside
  · rintro ⟨same, none⟩
    have nothing : (data.drop offset).takeWhile isLineEnd = [] :=
      List.eq_nil_of_length_eq_zero (Nat.add_eq_left.mp same)
    rw [none, nothing, List.count_nil, Nat.add_zero]

end Counting

namespace Scan

variable {delimiter : UInt8} {scan : Scan} {line offset : Nat} {bytes : List UInt8}
  {before last : Extent} {front behind : List Extent}

/-- The line of the first record is that on which the scan began. -/
theorem line_of_head (found : scan.extents delimiter line offset bytes = last :: behind) :
    last.entry.1 = line := by
  induction bytes generalizing scan offset with
  | nil =>
    rw [extents] at found
    split at found
    · simp at found
    · rw [← (List.cons.inj found).1]
  | cons byte bytes ih =>
    rw [extents] at found
    split at found
    · rw [← (List.cons.inj found).1]
    · exact ih found

theorem line_take (byte : UInt8) :
    (scan.take delimiter byte).1.line = scan.line + [byte].count lineFeed := by
  have counted : (if byte = lineFeed then scan.line + 1 else scan.line) =
      scan.line + [byte].count lineFeed := by
    rw [List.count_singleton]
    by_cases feed : byte = lineFeed <;> simp [feed]
  rw [take, ← counted]
  cases step delimiter scan.phase byte with
  | mk phase action => cases action <;> rfl

/-- A byte comes before the end of a record, or it is the end, and the next record is read from
there. -/
theorem extents_cons_cases {byte : UInt8}
    (found : scan.extents delimiter line offset (byte :: bytes) =
      front ++ before :: last :: behind) :
    (∃ (after : Scan) (line : Nat) (front : List Extent),
      after.line = scan.line + [byte].count lineFeed ∧
      after.extents delimiter line (offset + 1) bytes = front ++ before :: last :: behind) ∨
    before.stop = offset + 1 ∧ last.entry.1 = scan.line + [byte].count lineFeed ∧
      ∃ phase, phase.betweenRecords = true ∧
        (start phase last.entry.1).extents delimiter last.entry.1 (offset + 1) bytes =
          last :: behind := by
  have stepped := @line_take delimiter scan byte
  rw [extents] at found
  cases taken : scan.take delimiter byte with
  | mk after ended =>
    rw [taken] at found stepped
    cases ended with
    | false => exact .inl ⟨after, line, front, stepped, found⟩
    | true =>
      cases front with
      | cons first front =>
        exact .inl ⟨start after.phase after.line, _, front, stepped, (List.cons.inj found).2⟩
      | nil =>
        obtain ⟨rfl, rest⟩ := List.cons.inj found
        have same : last.entry.1 = after.line := line_of_head rest
        have between := (lineEnd_of_step (step_of_take taken)).2
        rw [same]
        exact .inr ⟨rfl, stepped, after.phase, between, rest⟩

/-- Where reading a record begins: behind the record before, on the line that the line feeds up to
there make. The induction is on the bytes, with the record before among those to come. -/
theorem line_of_extents
    (found : scan.extents delimiter line offset bytes = front ++ before :: last :: behind) :
    offset ≤ before.stop ∧
      last.entry.1 = scan.line + (bytes.take (before.stop - offset)).count lineFeed ∧
      ∃ phase, phase.betweenRecords = true ∧
        (start phase last.entry.1).extents delimiter last.entry.1 before.stop
          (bytes.drop (before.stop - offset)) = last :: behind := by
  induction bytes generalizing scan line offset front with
  | nil =>
    have one : (scan.extents delimiter line offset []).length ≤ 1 := by
      rw [extents]
      split <;> simp
    rw [found, List.length_append, List.length_cons, List.length_cons] at one
    omega
  | cons byte bytes ih =>
    rcases extents_cons_cases found with
      ⟨after, line, front, next, later⟩ | ⟨stop, lines, phase, between, rest⟩
    · obtain ⟨beyond, lines, rest⟩ := ih later
      have one : before.stop - offset = before.stop - (offset + 1) + 1 := by omega
      rw [one, List.take_succ_cons, List.drop_succ_cons, ← List.singleton_append, List.count_append,
        ← Nat.add_assoc, ← next]
      exact ⟨by omega, lines, rest⟩
    · rw [stop, Nat.add_sub_cancel_left, List.take_succ_cons, List.take_zero, List.drop_succ_cons,
        List.drop_zero]
      exact ⟨by omega, lines, phase, between, rest⟩

/-- Between records a line end is passed over. -/
theorem take_lineEnd {phase : Phase} (between : phase.betweenRecords = true) {byte : UInt8}
    (lineEnd : isLineEnd byte = true) (line : Nat) :
    ∃ line', (start phase line).take delimiter byte = (start .recordStart line', false) := by
  have passed : step delimiter phase byte = (.recordStart, .skip) := by
    rw [isLineEnd_iff] at lineEnd
    cases phase with
    | recordStart => simp [step, recordStep, lineEnd]
    | afterReturn => simp [step, recordStep, lineEnd]
    | fieldStart | plain | quoted | quoteSeen => contradiction
  exact ⟨_, by rw [take, start, passed]; rfl⟩

/-- Behind a record another one begins like the first one. -/
theorem take_firstByte {phase : Phase} (between : phase.betweenRecords = true) {byte : UInt8}
    (inside : isLineEnd byte = false) (line : Nat) :
    (start phase line).take delimiter byte = (start .recordStart line).take delimiter byte := by
  cases phase with
  | recordStart => rfl
  | afterReturn =>
    have noFeed : byte ≠ lineFeed := fun feed => by simp [isLineEnd, feed] at inside
    simp [take, start, step, noFeed]
  | fieldStart | plain | quoted | quoteSeen => contradiction

theorem offset_lt_stop (member : last ∈ scan.extents delimiter line offset bytes)
    (someBytes : bytes ≠ []) : offset < last.stop := by
  induction bytes generalizing scan line offset with
  | nil => contradiction
  | cons byte bytes ih =>
    have later {after : Scan} {line : Nat}
        (member : last ∈ after.extents delimiter line (offset + 1) bytes) : offset < last.stop := by
      cases bytes with
      | cons next rest => exact Nat.lt_of_succ_lt (ih member (by simp))
      | nil =>
        rw [extents] at member
        split at member
        · simp at member
        · rw [List.mem_singleton.mp member]
          exact Nat.lt_succ_self offset
    rw [extents] at member
    split at member
    · rcases List.mem_cons.mp member with rfl | member
      · exact Nat.lt_succ_self offset
      · exact later member
    · exact later member

/-- A record begins with the first byte that is no line end, and it is the one that a scan from there
on finds. -/
theorem firstByte_of_extents {phase : Phase} (between : phase.betweenRecords = true)
    {scanLine : Nat}
    (found : (start phase scanLine).extents delimiter line offset bytes = last :: behind) :
    let skipped := (bytes.takeWhile isLineEnd).length
    offset + skipped < last.stop ∧ (∃ byte, bytes[skipped]? = some byte ∧ isLineEnd byte = false) ∧
      ∃ begun, (start .recordStart begun).extents delimiter line (offset + skipped)
        (bytes.drop skipped) = last :: behind := by
  induction bytes generalizing phase scanLine offset with
  | nil =>
    rw [extents, start, if_pos between] at found
    simp at found
  | cons byte bytes ih =>
    by_cases lineEnd : isLineEnd byte = true
    · obtain ⟨line', passed⟩ := @take_lineEnd delimiter _ between _ lineEnd scanLine
      rw [extents, passed] at found
      obtain ⟨inside, first, rest⟩ := ih rfl found
      simp only [List.takeWhile_cons, lineEnd, if_true, List.length_cons, List.getElem?_cons_succ,
        List.drop_succ_cons, ← Nat.add_assoc, Nat.add_right_comm offset _ 1]
      exact ⟨inside, first, rest⟩
    · have inside : isLineEnd byte = false := by simpa using lineEnd
      have member : last ∈ (start phase scanLine).extents delimiter line offset (byte :: bytes) := by
        simp [found]
      have beyond := offset_lt_stop member (by simp)
      rw [extents, take_firstByte between inside scanLine, ← extents] at found
      simpa [inside] using ⟨beyond, scanLine, found⟩

end Scan

section Data

variable {delimiter : UInt8} {capacity : Nat} {data : List UInt8} {front behind : List Extent}
  {before last : Extent}

/-- Where reading a record begins in data, and where its first byte is. -/
theorem line_of_extentsOf
    (found : extentsOf delimiter capacity data = front ++ before :: last :: behind) :
    last.entry.1 = 1 + (data.take before.stop).count lineFeed ∧
      firstByte data before.stop < last.stop ∧
      ∃ byte, data[firstByte data before.stop]? = some byte ∧ isLineEnd byte = false := by
  simp only [firstByte, ← List.getElem?_drop]
  have several : front ++ before :: last :: behind ≠ [] := by simp
  unfold extentsOf at found
  split at found
  · exact absurd found.symm several
  · split at found
    · next marked =>
      obtain ⟨beyond, lines, phase, between, rest⟩ := Scan.line_of_extents found
      obtain ⟨inside, ⟨byte, first, noEnd⟩, -⟩ := Scan.firstByte_of_extents between rest
      have same : (data.drop 3).drop (before.stop - 3) = data.drop before.stop := by
        rw [List.drop_drop, Nat.add_sub_cancel' beyond]
      have mark : data.take 3 = Utf8.mark :=
        (List.prefix_iff_eq_take.mp (marked.trans (List.take_prefix capacity data))).symm
      rw [same] at inside first
      refine ⟨lines.trans ?_, inside, byte, first, noEnd⟩
      -- No line feed is lost with the mark.
      rw [← Nat.add_sub_cancel' beyond, List.take_add, List.count_append, mark,
        Nat.add_sub_cancel_left, show Utf8.mark.count lineFeed = 0 by decide, Nat.zero_add]
      rfl
    · obtain ⟨beyond, lines, phase, between, rest⟩ := Scan.line_of_extents found
      obtain ⟨inside, ⟨byte, first, noEnd⟩, -⟩ := Scan.firstByte_of_extents between rest
      rw [Nat.sub_zero] at lines inside first
      exact ⟨lines, inside, byte, first, noEnd⟩

end Data

end Csv

namespace ReadOptions

/-- A fault is the answer to the first malformed record, behind a row for each record before it. -/
theorem fault_of_unlimitedAnswers {options : ReadOptions} {names : List String}
    {records : List Csv.LinedRecord} {pulls : Nat} {fault : Fault}
    (answered : (options.unlimitedAnswers names records)[pulls]? = some (.error fault)) :
    ∃ front last behind, records = front ++ last :: behind ∧ front.length = pulls ∧
      (∀ entry ∈ front, ¬ Csv.Malformed names.length entry.2) ∧
      Csv.Malformed names.length last.2 ∧ fault = Csv.reportOf names.length last := by
  cases policy : options.malformed with
  | skip | pad =>
    simp only [unlimitedAnswers, policy, List.getElem?_map, Option.map_eq_some_iff] at answered
    obtain ⟨_, _, impossible⟩ := answered
    contradiction
  | fail =>
    induction records generalizing pulls with
    | nil => simp [unlimitedAnswers_nil] at answered
    | cons entry rest ih =>
      by_cases bad : Csv.Malformed names.length entry.2
      · rw [unlimitedAnswers_failed rest bad policy] at answered
        cases pulls with
        | zero =>
          obtain rfl : Csv.reportOf names.length entry = fault := by simpa using answered
          exact ⟨[], entry, rest, rfl, rfl, by simp, bad, rfl⟩
        | succ pulls => simp at answered
      · rw [unlimitedAnswers_wellFormed rest bad] at answered
        cases pulls with
        | zero => simp at answered
        | succ pulls =>
          obtain ⟨front, last, behind, rfl, length, good, malformed, report⟩ := ih answered
          exact ⟨entry :: front, last, behind, rfl, congrArg (· + 1) length,
            List.forall_mem_cons.mpr ⟨bad, good⟩, malformed, report⟩

theorem of_getElem?_limited {α : Type} {limit : Option Nat} {elements : List α} {place : Nat}
    {element : α} (found : (limited limit elements)[place]? = some element) :
    elements[place]? = some element := by
  unfold limited at found
  split at found
  · rw [List.getElem?_take] at found
    split at found
    · exact found
    · contradiction
  · exact found

end ReadOptions

namespace RowReader

/-- Data that open are fetched through a buffer. -/
theorem capacity_of_openData {data : List UInt8} {source : String} {options : ReadOptions}
    {reader : RowReader} (opened : openData data source options = .ok reader) :
    0 < options.bufferCapacity := by
  obtain ⟨start, _, _, started, -⟩ := exists_of_openData opened
  refine Nat.pos_of_ne_zero fun zero => ?_
  have nothing : Csv.blocks 0 data.length data = [] := by
    cases data <;> rfl
  rw [zero, Csv.Cursor.start?, nothing] at started
  contradiction

/-- A fault reports the first malformed record behind the header, which comes behind a row for each
pull before. The line that it names is one more than the line feeds up to the end of the record
before. The record stands as many lines further on as there are line feeds between that end and its
first byte and carriage returns alone in front of it, so that the fault names its line exactly if it
begins right there and all carriage returns in front of it are followed by line feeds. -/
theorem line_of_fault {data : List UInt8} {source : String} {options : ReadOptions}
    {reader : RowReader} {pulls : Nat} {fault : Fault}
    (opened : openData data source options = .ok reader)
    (failed : (reader.pulled pulls).next.1 = .error fault) :
    ∃ header rows last behind, Csv.extentsOf options.delimiter options.bufferCapacity data =
        header :: (rows ++ last :: behind) ∧
      rows.length = pulls ∧ (∀ row ∈ rows, ¬ Csv.Malformed reader.names.length row.entry.2) ∧
      Csv.Malformed reader.names.length last.entry.2 ∧
      fault = Csv.reportOf reader.names.length last.entry ∧
      let start := (rows.getLastD header).stop
      let first := Csv.firstByte data start
      first < last.stop ∧ (∃ byte, data[first]? = some byte ∧ Csv.isLineEnd byte = false) ∧
      ∃ line, fault.line? = some line ∧ line = 1 + (data.take start).count Csv.lineFeed ∧
        Csv.lineAt data first =
          line + ((data.drop start).takeWhile Csv.isLineEnd).count Csv.lineFeed +
            (List.range first).countP (Csv.LoneReturn data) ∧
        (line = Csv.lineAt data first ↔
          first = start ∧ ∀ place < first, ¬ Csv.LoneReturn data place) := by
  have positive := capacity_of_openData opened
  obtain ⟨_, read, -⟩ := opened_of_openData opened
  have answered : (options.answers reader.names reader.cursor.records)[pulls]? =
      some (.error fault) := by
    have answer := ((reads_of_openData opened read).2 pulls).1
    rw [failed] at answer
    match found : (options.answers reader.names reader.cursor.records)[pulls]? with
    | none => simp [found, pullOf] at answer
    | some (.ok row) => simp [found, pullOf] at answer
    | some (.error cause) =>
      obtain rfl : fault = cause := by simpa [found, pullOf] using answer
      rfl
  obtain ⟨good, bad, others, records, length, wellFormed, malformed, report⟩ :=
    ReadOptions.fault_of_unlimitedAnswers (ReadOptions.of_getElem?_limited answered)
  rw [Csv.recordsOf_eq_extentsOf options.delimiter positive, records, List.map_eq_cons_iff] at read
  obtain ⟨header, rest, extents, -, read⟩ := read
  obtain ⟨rows, behind', rfl, rfl, further⟩ := List.map_eq_append_iff.mp read
  obtain ⟨last, behind, rfl, rfl, -⟩ := List.map_eq_cons_iff.mp further
  have split : header :: (rows ++ last :: behind) =
      (header :: rows).dropLast ++ rows.getLastD header :: last :: behind := by
    have whole := List.dropLast_append_getLast (List.cons_ne_nil header rows)
    rw [List.getLast_eq_getLastD] at whole
    rw [← List.cons_append, ← whole]
    simp
  obtain ⟨line, inside, byte, first, noEnd⟩ := Csv.line_of_extentsOf (extents.trans split)
  refine ⟨header, rows, last, behind, extents, by simpa using length,
    fun row member => wellFormed _ (List.mem_map_of_mem member), malformed, report, inside,
    ⟨byte, first, noEnd⟩, last.entry.1, ?_, line, ?_, ?_⟩
  · rw [report, Csv.line?_reportOf]
  · rw [line]
    exact Csv.lineAt_firstByte data _
  · rw [line]
    exact Csv.lineAt_firstByte_eq_iff data first noEnd

/-- An empty line is not counted in front of the record behind it. -/
theorem line_of_fault_behind_empty_line :
    ∃ reader line, openData [97, 10, 49, 10, 13, 10, 50, 44, 51] "inline"
        ⟨44, none, .fail, [], [], 16⟩ = .ok reader ∧
      (reader.pulled 1).next.1 = .error (.malformedRow line 1 2) ∧ line = 3 ∧
      Csv.lineAt [97, 10, 49, 10, 13, 10, 50, 44, 51] 6 = line + 1 := by
  have fails : (openData [97, 10, 49, 10, 13, 10, 50, 44, 51] "inline"
      ⟨44, none, .fail, [], [], 16⟩).map (fun reader => (reader.pulled 1).next.1) =
        .ok (.error (.malformedRow 3 1 2)) := by
    decide +kernel
  have extents : Csv.extentsOf 44 16 [97, 10, 49, 10, 13, 10, 50, 44, 51] =
      [⟨(1, [[97]]), 2, true⟩, ⟨(2, [[49]]), 4, true⟩, ⟨(3, [[50], [51]]), 9, false⟩] := by decide
  cases opened : openData [97, 10, 49, 10, 13, 10, 50, 44, 51] "inline"
      ⟨44, none, .fail, [], [], 16⟩ with
  | error fault => simp [opened, Except.map] at fails
  | ok reader =>
    have failed : (reader.pulled 1).next.1 = .error (.malformedRow 3 1 2) := by
      simpa [opened, Except.map] using fails
    obtain ⟨header, rows, last, behind, found, one, -, -, -, -, -, line, named, -, further, -⟩ :=
      line_of_fault opened failed
    obtain rfl : 3 = line := Option.some.inj named
    obtain ⟨row, rfl⟩ := List.length_eq_one_iff.mp one
    rw [extents] at found
    obtain ⟨rfl, rest⟩ := List.cons.inj found
    obtain ⟨rfl, -⟩ := List.cons.inj rest
    exact ⟨reader, 3, rfl, failed, rfl, further.trans (by decide)⟩

/-- The line feed that belongs to the end of the line before is not counted in front of a record. -/
theorem line_of_fault_not_physical :
    ¬ ∀ (data : List UInt8) (source : String) (options : ReadOptions) (reader : RowReader)
        (pulls : Nat) (fault : Fault) (header : Csv.Extent) (rows : List Csv.Extent)
        (last : Csv.Extent) (behind : List Csv.Extent), options.malformed = .fail →
      openData data source options = .ok reader →
      (reader.pulled pulls).next.1 = .error fault →
      Csv.extentsOf options.delimiter options.bufferCapacity data =
        header :: (rows ++ last :: behind) → rows.length = pulls →
      fault.line? = some (Csv.lineAt data (Csv.firstByte data (rows.getLastD header).stop)) := by
  intro physical
  have fails : (openData [97, 13, 10, 49, 44, 50, 13, 10] "inline"
      ⟨44, none, .fail, [], [], 16⟩).map (fun reader => (reader.pulled 0).next.1) =
        .ok (.error (.malformedRow 1 1 2)) := by
    decide +kernel
  cases opened : openData [97, 13, 10, 49, 44, 50, 13, 10] "inline"
      ⟨44, none, .fail, [], [], 16⟩ with
  | error fault => simp [opened, Except.map] at fails
  | ok reader =>
    have failed : (reader.pulled 0).next.1 = .error (.malformedRow 1 1 2) := by
      simpa [opened, Except.map] using fails
    have named := physical _ _ _ _ _ _ ⟨(1, [[97]]), 2, true⟩ [] ⟨(1, [[49], [50]]), 7, true⟩ []
      rfl opened failed (by decide) rfl
    exact absurd named (by decide)

end RowReader

end Medals
