import Medals.Csv.Reader
import Medals.Proofs.Csv.Records
import Medals.Proofs.Table.Columns
import Medals.Proofs.Text.Utf8

/-!
# What reading yields under each policy

`ReadOptions.answers` says what becomes of records without a reader: which of them become rows,
where a fault ends the reading, and where the limit cuts it. `Csv.taken` are the records that have
to be taken for some number of answers. `RowReader.pulls_eq_answers` says that a reader gives these
answers pull by pull and counts exactly the records taken so far.
-/

namespace Medals

namespace Csv

/-- A record with another number of fields than the header, or with a field that is not UTF-8. -/
def Malformed (width : Nat) (record : Record) : Prop :=
  record.length ≠ width ∨ ∃ field ∈ record, Utf8.isValid field = false

instance (width : Nat) : DecidablePred (Malformed width) := fun _ =>
  inferInstanceAs (Decidable (_ ∨ _))

/-- How a malformed record is reported: by its first field that is not UTF-8, else by its width. -/
def reportOf (width : Nat) (entry : LinedRecord) : Fault :=
  match entry.2.findIdx? fun field => !Utf8.isValid field with
  | some field => .invalidUtf8 entry.1 field
  | none => .malformedRow entry.1 width entry.2.length

/-- The records that are taken for a number of answers. A malformed record that is left out does not
answer, and one that ends the reading is the last. -/
def taken (policy : MalformedPolicy) (width : Nat) : List LinedRecord → Nat → List LinedRecord
  | [], _ => []
  | _, 0 => []
  | entry :: rest, answers + 1 =>
    entry ::
      if Malformed width entry.2 then
        match policy with
        | .skip => taken policy width rest (answers + 1)
        | .fail => []
        | .pad => taken policy width rest answers
      else taken policy width rest answers

/-- The text of a field; in a field that is not UTF-8 the ill-formed bytes are replaced. -/
def fieldText (field : List UInt8) : String :=
  (Utf8.decode? field).getD (Utf8.decodeLossy field)

theorem fieldText_eq (field : List UInt8) : fieldText field = Utf8.decodeLossy field := by
  cases decoded : Utf8.decode? field with
  | none => rw [fieldText, decoded, Option.getD_none]
  | some text => rw [fieldText, decoded, Option.getD_some, Utf8.decodeLossy_of_decode? decoded]

end Csv

namespace ReadOptions

/-- The cell of a column for its field; without a field it is missing. -/
def cellOf (options : ReadOptions) (name : String) : Option (List UInt8) → Cell
  | some field => parseCell options.nullTokens (options.declaredKind? name) (Csv.fieldText field)
  | none => .missing

/-- The row of a record under a header: one cell per column, fields beyond the header dropped. -/
def rowOf (options : ReadOptions) (names : List String) (record : Csv.Record) : Row :=
  ⟨names, names.mapIdx fun index name => options.cellOf name record[index]?, by simp⟩

/-- What the records under a header are answered with when nothing limits the reading. -/
def unlimitedAnswers (options : ReadOptions) (names : List String)
    (records : List Csv.LinedRecord) : List (Except Fault Row) :=
  let wellFormed (entry : Csv.LinedRecord) : Bool := !decide (Csv.Malformed names.length entry.2)
  match options.malformed with
  | .skip => (records.filter wellFormed).map fun entry => .ok (options.rowOf names entry.2)
  | .pad => records.map fun entry => .ok (options.rowOf names entry.2)
  | .fail =>
    ((records.takeWhile wellFormed).map fun entry => .ok (options.rowOf names entry.2)) ++
      (((records.dropWhile wellFormed).head?).map fun entry =>
        .error (Csv.reportOf names.length entry)).toList

/-- A limit cuts a list to its first elements. -/
def limited {α : Type} (limit : Option Nat) (elements : List α) : List α :=
  match limit with
  | some most => elements.take most
  | none => elements

/-- How many of some pulls a limit allows. -/
def allowed (limit : Option Nat) (pulls : Nat) : Nat :=
  match limit with
  | some most => min pulls most
  | none => pulls

/-- What the records under a header are answered with. -/
def answers (options : ReadOptions) (names : List String) (records : List Csv.LinedRecord) :
    List (Except Fault Row) :=
  limited options.limit (options.unlimitedAnswers names records)

end ReadOptions

namespace ReadOptions

section Answers

variable {options : ReadOptions} {names : List String} {entry : Csv.LinedRecord}

theorem unlimitedAnswers_nil : options.unlimitedAnswers names [] = [] := by
  cases policy : options.malformed <;> simp [unlimitedAnswers, policy]

theorem unlimitedAnswers_wellFormed (rest : List Csv.LinedRecord)
    (good : ¬ Csv.Malformed names.length entry.2) :
    options.unlimitedAnswers names (entry :: rest) =
      .ok (options.rowOf names entry.2) :: options.unlimitedAnswers names rest := by
  cases policy : options.malformed <;> simp [unlimitedAnswers, policy, good]

theorem unlimitedAnswers_skipped (rest : List Csv.LinedRecord)
    (bad : Csv.Malformed names.length entry.2) (policy : options.malformed = .skip) :
    options.unlimitedAnswers names (entry :: rest) = options.unlimitedAnswers names rest := by
  simp [unlimitedAnswers, policy, bad]

theorem unlimitedAnswers_failed (rest : List Csv.LinedRecord)
    (bad : Csv.Malformed names.length entry.2) (policy : options.malformed = .fail) :
    options.unlimitedAnswers names (entry :: rest) = [.error (Csv.reportOf names.length entry)] := by
  simp [unlimitedAnswers, policy, bad]

theorem unlimitedAnswers_padded (rest : List Csv.LinedRecord)
    (policy : options.malformed = .pad) :
    options.unlimitedAnswers names (entry :: rest) =
      .ok (options.rowOf names entry.2) :: options.unlimitedAnswers names rest := by
  simp [unlimitedAnswers, policy]

end Answers

end ReadOptions

namespace RowReader

/-- The reader after some pulls. -/
def pulled (reader : RowReader) : Nat → RowReader
  | 0 => reader
  | pulls + 1 => reader.next.2.pulled pulls

/-- The answer to a pull, given the next one of the list of answers. -/
def pullOf : Option (Except Fault Row) → Except Fault (Option Row)
  | some (.ok row) => .ok (some row)
  | some (.error fault) => .error fault
  | none => .ok none

/-- The reader reads under a header as the options say. -/
structure Serves (reader : RowReader) (options : ReadOptions) (names : List String) : Prop where
  columns : reader.columns.map (fun column => (column.name, column.declared?)) =
    names.map fun name => (name, options.declaredKind? name)
  nullTokens : reader.nullTokens = options.nullTokens
  malformed : reader.malformed = options.malformed
  limit : reader.limit = options.limit

section Serving

variable {reader : RowReader} {options : ReadOptions} {names : List String}

theorem Serves.width (serves : reader.Serves options names) :
    reader.columns.length = names.length := by
  simpa using congrArg List.length serves.columns

theorem Serves.names_eq (serves : reader.Serves options names) : reader.names = names := by
  have first := congrArg (List.map Prod.fst) serves.columns
  simpa [RowReader.names, Function.comp_def] using first

theorem Serves.advance (serves : reader.Serves options names) (cursor : Csv.Cursor) :
    (reader.advance cursor).Serves options names :=
  ⟨serves.columns, serves.nullTokens, serves.malformed, serves.limit⟩

theorem Serves.countMalformed (serves : reader.Serves options names) :
    reader.countMalformed.Serves options names :=
  ⟨serves.columns, serves.nullTokens, serves.malformed, serves.limit⟩

/-- Taking a row into account changes neither the names nor the declared kinds. -/
theorem map_declared_observe (columns : List SourceColumn) (cells : List Cell)
    (width : cells.length = columns.length) :
    (columns.zipWith (fun column cell => { column with seen := column.seen.observe cell })
      cells).map (fun column => (column.name, column.declared?)) =
      columns.map fun column => (column.name, column.declared?) := by
  induction columns generalizing cells with
  | nil => simp
  | cons column rest ih =>
    cases cells with
    | nil => simp at width
    | cons cell others => simpa using ih others (by simpa using width)

theorem Serves.emit (serves : reader.Serves options names) (row : Row)
    (width : row.cells.length = names.length) : (reader.emit row).Serves options names :=
  ⟨(map_declared_observe reader.columns row.cells (width.trans serves.width.symm)).trans
    serves.columns, serves.nullTokens, serves.malformed, serves.limit⟩

/-- A column without a field has an empty text, which stands for a missing cell. -/
theorem parseCell_empty (nullTokens : List String) (declared? : Option CellKind) :
    parseCell nullTokens declared? (Utf8.decodeLossy []) = .missing := by
  have blank : trimmed (Utf8.decodeLossy []) = "" := by decide
  simp [parseCell, blank]

/-- The declared kind of each column is the one that the options give its name. -/
theorem Serves.declared (serves : reader.Serves options names) (index : Nat)
    (here : index < reader.columns.length) (there : index < names.length) :
    reader.columns[index].declared? = options.declaredKind? names[index] := by
  have column := congrArg (fun columns => columns[index]?) serves.columns
  simp only [List.getElem?_map, List.getElem?_eq_getElem here, List.getElem?_eq_getElem there,
    Option.map_some, Option.some.injEq, Prod.mk.injEq] at column
  exact column.2

theorem Serves.rowOf_eq (serves : reader.Serves options names) (record : Csv.Record) :
    reader.rowOf record = options.rowOf names record := by
  have widths : (reader.rowOf record).cells.length = (options.rowOf names record).cells.length := by
    simp [RowReader.rowOf, ReadOptions.rowOf, serves.width]
  refine Row.ext_cells serves.names_eq (List.ext_getElem widths fun index here there => ?_)
  have inside : index < names.length := by simpa [ReadOptions.rowOf] using there
  have bound : index < reader.columns.length := by rw [serves.width]; exact inside
  have declared := serves.declared index bound inside
  simp only [RowReader.rowOf, ReadOptions.rowOf, List.getElem_map, List.getElem_zipIdx,
    List.getElem_mapIdx, Nat.zero_add, declared, serves.nullTokens]
  cases field : record[index]? with
  | none =>
    rw [List.getD_eq_getElem?_getD, field, Option.getD_none, parseCell_empty]
    rfl
  | some bytes =>
    rw [List.getD_eq_getElem?_getD, field, Option.getD_some, ← Csv.fieldText_eq]
    rfl

/-- A reader finds a defect in exactly the malformed records. -/
theorem defect?_eq {width : Nat} (columns : reader.columns.length = width) (line : Nat)
    (record : Csv.Record) :
    reader.defect? line record =
      if Csv.Malformed width record then some (Csv.reportOf width (line, record)) else none := by
  unfold RowReader.defect? Csv.reportOf Csv.Malformed
  rw [columns]
  cases found : record.findIdx? fun field => !Utf8.isValid field with
  | some index =>
    have invalid : ∃ field ∈ record, Utf8.isValid field = false := by
      have position := List.findIdx?_eq_some_iff_findIdx_eq.mp found
      obtain ⟨field, member, bad⟩ := List.findIdx_lt_length.mp (position.2 ▸ position.1)
      exact ⟨field, member, by simpa using bad⟩
    simp [invalid]
  | none =>
    have valid : ¬ ∃ field ∈ record, Utf8.isValid field = false := by
      simpa using List.findIdx?_eq_none_iff.mp found
    simp [valid]

end Serving

section Next

variable {reader : RowReader}

theorem next_of_finished (finished : reader.finished = true) : reader.next = (.ok none, reader) := by
  rw [next, if_pos finished]

theorem next_of_limit (unfinished : reader.finished = false)
    (full : reader.limitReached = true) :
    reader.next = (.ok none, { reader with finished := true }) := by
  rw [next, unfinished, full]
  rfl

variable (unfinished : reader.finished = false) (room : reader.limitReached = false)

include unfinished room

theorem next_of_end {cursor : Csv.Cursor} (ended : reader.cursor.next = (none, cursor)) :
    reader.next = (.ok none, { reader with cursor, finished := true }) := by
  rw [next, if_neg (by simp [unfinished]), if_neg (by simp [room])]
  split
  · next other same =>
    obtain ⟨_, rfl⟩ := Prod.mk.inj (ended.symm.trans same)
    rfl
  · next same => simp [ended] at same

/-- A record becomes a row unless it is malformed, and then what the policy says. -/
theorem next_of_record {cursor : Csv.Cursor} {record : Csv.Record}
    (found : reader.cursor.next = (some record, cursor)) :
    reader.next =
      let after := reader.advance cursor
      match reader.defect? reader.cursor.line record with
      | none => (.ok (some (after.rowOf record)), after.emit (after.rowOf record))
      | some fault =>
        match reader.malformed with
        | .skip => after.countMalformed.next
        | .fail => (.error fault, { after.countMalformed with finished := true })
        | .pad =>
          (.ok (some (after.countMalformed.rowOf record)),
            after.countMalformed.emit (after.countMalformed.rowOf record)) := by
  conv_lhs => rw [next, if_neg (by simp [unfinished]), if_neg (by simp [room])]
  split
  · next same => simp [found] at same
  · next other after same =>
    obtain ⟨first, rfl⟩ := Prod.mk.inj (found.symm.trans same)
    obtain rfl : record = other := Option.some.inj first
    rfl

end Next

section Pulls

variable {reader after : RowReader} {options : ReadOptions} {names : List String}

/-- How many rows the limit still allows. -/
def roomLeft (reader : RowReader) : Option Nat :=
  reader.limit.map (· - reader.rowsEmitted)

/-- Rows yielded, records read and malformed records among them. -/
def counts (reader : RowReader) : Nat × Nat × Nat :=
  (reader.rowsEmitted, reader.recordsRead, reader.malformedRows)

theorem roomLeft_of_full (full : reader.limitReached = true) : reader.roomLeft = some 0 := by
  cases limit : reader.limit with
  | none => simp [limitReached, limit] at full
  | some most =>
    have reached : most ≤ reader.rowsEmitted := by simpa [limitReached, limit] using full
    simp [roomLeft, limit, reached]

section OneRow

variable (room : reader.limitReached = false) (limit : after.limit = reader.limit)
  (emitted : after.rowsEmitted = reader.rowsEmitted + 1)

include room limit emitted

theorem limited_cons {α : Type} (first : α) (rest : List α) :
    ReadOptions.limited reader.roomLeft (first :: rest) =
      first :: ReadOptions.limited after.roomLeft rest := by
  cases bound : reader.limit with
  | none => simp [ReadOptions.limited, roomLeft, limit, bound]
  | some most =>
    have below : reader.rowsEmitted < most := by simpa [limitReached, bound] using room
    obtain ⟨more, split⟩ := Nat.exists_eq_add_of_lt below
    have one : most - reader.rowsEmitted = most - (reader.rowsEmitted + 1) + 1 := by omega
    simp [ReadOptions.limited, roomLeft, limit, emitted, bound, one]

theorem allowed_succ (pulls : Nat) :
    ReadOptions.allowed reader.roomLeft (pulls + 1) =
      ReadOptions.allowed after.roomLeft pulls + 1 := by
  cases bound : reader.limit with
  | none => simp [ReadOptions.allowed, roomLeft, limit, bound]
  | some most =>
    have below : reader.rowsEmitted < most := by simpa [limitReached, bound] using room
    simp only [ReadOptions.allowed, roomLeft, limit, emitted, bound, Option.map_some]
    omega

end OneRow

theorem pulled_of_finished (finished : reader.finished = true) (pulls : Nat) :
    reader.pulled pulls = reader := by
  induction pulls with
  | zero => rfl
  | succ pulls ih => rw [pulled, next_of_finished finished, ih]

/-- After some pulls the next answer is that of the list and the counters are those of the records
taken for the answers so far. -/
structure Follows (reader : RowReader) (options : ReadOptions) (names : List String)
    (records : List Csv.LinedRecord) (pulls : Nat) : Prop where
  answer : (reader.pulled pulls).next.1 = pullOf
    (ReadOptions.limited reader.roomLeft (options.unlimitedAnswers names records))[pulls]?
  counts : (reader.pulled pulls).counts =
    let answered := ReadOptions.limited reader.roomLeft (options.unlimitedAnswers names records)
    let passed := Csv.taken options.malformed names.length records
      (ReadOptions.allowed reader.roomLeft pulls)
    (reader.rowsEmitted + (answered.take pulls).countP Except.isOk,
      reader.recordsRead + passed.length,
      reader.malformedRows + passed.countP fun entry => Csv.Malformed names.length entry.2)

/-- Before the first pull nothing is counted. -/
theorem Follows.of_answer {records : List Csv.LinedRecord}
    (answer : reader.next.1 = pullOf
      (ReadOptions.limited reader.roomLeft (options.unlimitedAnswers names records))[0]?) :
    reader.Follows options names records 0 := by
  have none : ReadOptions.allowed reader.roomLeft 0 = 0 := by
    cases reader.roomLeft <;> simp [ReadOptions.allowed]
  refine ⟨answer, ?_⟩
  rw [none, pulled]
  cases records <;> simp [Csv.taken, RowReader.counts]

/-- A reader whose next pull ends without an answer. -/
theorem Follows.of_end {records : List Csv.LinedRecord}
    (ended : reader.next = (.ok none, after)) (finished : after.finished = true)
    (same : after.counts = reader.counts)
    (silent : ReadOptions.limited reader.roomLeft (options.unlimitedAnswers names records) = [])
    (untaken : ∀ pulls, Csv.taken options.malformed names.length records
      (ReadOptions.allowed reader.roomLeft pulls) = []) (pulls : Nat) :
    reader.Follows options names records pulls := by
  cases pulls with
  | zero => exact .of_answer (by rw [silent, ended]; rfl)
  | succ pulls =>
    have stays : reader.pulled (pulls + 1) = after := by
      rw [pulled, ended, pulled_of_finished finished]
    refine ⟨?_, ?_⟩
    · rw [stays, next_of_finished finished, silent]
      rfl
    · rw [stays, same, silent, untaken]
      rfl

/-- A reader whose next pull yields a row for a record goes on with the rest. -/
theorem Follows.of_row {entry : Csv.LinedRecord} {rest : List Csv.LinedRecord} {row : Row}
    (room : reader.limitReached = false) (yielded : reader.next = (.ok (some row), after))
    (limit : after.limit = reader.limit) (emitted : after.rowsEmitted = reader.rowsEmitted + 1)
    (read : after.recordsRead = reader.recordsRead + 1)
    (malformed : after.malformedRows =
      reader.malformedRows + if Csv.Malformed names.length entry.2 then 1 else 0)
    (answer : options.unlimitedAnswers names (entry :: rest) =
      .ok row :: options.unlimitedAnswers names rest)
    (taken : ∀ answers, Csv.taken options.malformed names.length (entry :: rest) (answers + 1) =
      entry :: Csv.taken options.malformed names.length rest answers)
    (follows : ∀ pulls, after.Follows options names rest pulls) (pulls : Nat) :
    reader.Follows options names (entry :: rest) pulls := by
  have answers := limited_cons room limit emitted (Except.ok row : Except Fault Row)
    (options.unlimitedAnswers names rest)
  rw [← answer] at answers
  cases pulls with
  | zero => exact .of_answer (by rw [answers, yielded]; rfl)
  | succ pulls =>
    have goesOn : reader.pulled (pulls + 1) = after.pulled pulls := by rw [pulled, yielded]
    obtain ⟨later, counted⟩ := follows pulls
    refine ⟨?_, ?_⟩
    · rw [goesOn, later, answers]
      rfl
    · rw [goesOn, counted, answers, allowed_succ room limit emitted, taken, emitted, read, malformed]
      have row : Except.isOk (Except.ok row : Except Fault Row) = true := rfl
      by_cases bad : Csv.Malformed names.length entry.2 <;>
        simp [bad, row] <;> omega

/-- A reader that passes over a malformed record answers as it does without the record. -/
theorem Follows.of_skip {entry : Csv.LinedRecord} {rest : List Csv.LinedRecord}
    (room : reader.limitReached = false) (same : reader.next = after.next)
    (limit : after.limit = reader.limit) (emitted : after.rowsEmitted = reader.rowsEmitted)
    (read : after.recordsRead = reader.recordsRead + 1)
    (malformed : after.malformedRows = reader.malformedRows + 1)
    (bad : Csv.Malformed names.length entry.2) (policy : options.malformed = .skip)
    (follows : ∀ pulls, after.Follows options names rest pulls) (pulls : Nat) :
    reader.Follows options names (entry :: rest) pulls := by
  have answers := ReadOptions.unlimitedAnswers_skipped rest bad policy
  have left : after.roomLeft = reader.roomLeft := by simp [roomLeft, limit, emitted]
  cases pulls with
  | zero => exact .of_answer (by rw [answers, same, ← left]; exact (follows 0).answer)
  | succ pulls =>
    have goesOn : reader.pulled (pulls + 1) = after.pulled (pulls + 1) := by
      rw [pulled, same, pulled]
    obtain ⟨later, counted⟩ := follows (pulls + 1)
    obtain ⟨more, allowed⟩ : ∃ more, ReadOptions.allowed reader.roomLeft (pulls + 1) = more + 1 :=
      ⟨_, @allowed_succ reader { reader with rowsEmitted := reader.rowsEmitted + 1 }
        room rfl rfl pulls⟩
    have taken : Csv.taken options.malformed names.length (entry :: rest) (more + 1) =
        entry :: Csv.taken options.malformed names.length rest (more + 1) := by
      simp [Csv.taken, bad, policy]
    refine ⟨?_, ?_⟩
    · rw [goesOn, later, answers, left]
    · rw [goesOn, counted, answers, left, allowed, taken, emitted, read, malformed]
      simp [bad]
      omega

/-- A reader that ends with a fault gives it as its last answer. -/
theorem Follows.of_fault {entry : Csv.LinedRecord} {rest : List Csv.LinedRecord}
    (room : reader.limitReached = false)
    (failed : reader.next = (.error (Csv.reportOf names.length entry), after))
    (finished : after.finished = true) (emitted : after.rowsEmitted = reader.rowsEmitted)
    (read : after.recordsRead = reader.recordsRead + 1)
    (malformed : after.malformedRows = reader.malformedRows + 1)
    (bad : Csv.Malformed names.length entry.2) (policy : options.malformed = .fail)
    (pulls : Nat) : reader.Follows options names (entry :: rest) pulls := by
  have once : { reader with rowsEmitted := reader.rowsEmitted + 1 }.limit = reader.limit := rfl
  have answers := limited_cons room once rfl
    (Except.error (Csv.reportOf names.length entry) : Except Fault Row) []
  rw [← ReadOptions.unlimitedAnswers_failed rest bad policy] at answers
  have last : ∀ limit, ReadOptions.limited limit ([] : List (Except Fault Row)) = [] := by
    intro limit
    cases limit <;> simp [ReadOptions.limited]
  rw [last] at answers
  cases pulls with
  | zero => exact .of_answer (by rw [answers, failed]; rfl)
  | succ pulls =>
    have stays : reader.pulled (pulls + 1) = after := by
      rw [pulled, failed, pulled_of_finished finished]
    have taken : Csv.taken options.malformed names.length (entry :: rest)
        (ReadOptions.allowed reader.roomLeft (pulls + 1)) = [entry] := by
      rw [allowed_succ room once rfl]
      simp [Csv.taken, bad, policy]
    refine ⟨?_, ?_⟩
    · rw [stays, next_of_finished finished, answers]
      rfl
    · rw [stays, answers, taken, RowReader.counts, emitted, read, malformed]
      simp [bad, Except.isOk, Except.toBool]

/-- A reader that has not ended follows the records to come. The induction is on these records: a
row answers one pull, and a record that is left out answers none. -/
theorem follows {records : List Csv.LinedRecord} (serves : reader.Serves options names)
    (unfinished : reader.finished = false) (pending : reader.cursor.records = records)
    (pulls : Nat) : reader.Follows options names records pulls := by
  induction records generalizing reader pulls with
  | nil =>
    cases room : reader.limitReached with
    | true =>
      refine .of_end (next_of_limit unfinished room) rfl rfl ?_ (fun _ => rfl) pulls
      rw [roomLeft_of_full room]
      rfl
    | false =>
      obtain ⟨cursor, ended⟩ := Csv.Cursor.next_of_records_nil pending
      refine .of_end (next_of_end unfinished room ended) rfl rfl ?_ (fun _ => rfl) pulls
      rw [ReadOptions.unlimitedAnswers_nil]
      cases reader.roomLeft <;> simp [ReadOptions.limited]
  | cons entry rest ih =>
    cases room : reader.limitReached with
    | true =>
      refine .of_end (next_of_limit unfinished room) rfl rfl ?_ ?_ pulls
      · rw [roomLeft_of_full room]
        rfl
      · intro pulls
        rw [roomLeft_of_full room]
        simp [ReadOptions.allowed, Csv.taken]
    | false =>
      obtain ⟨cursor, found, line, remaining⟩ := Csv.Cursor.next_of_records_cons pending
      have next := next_of_record unfinished room found
      have defect := defect?_eq serves.width reader.cursor.line entry.2
      have advanced := serves.advance cursor
      have emits : ∀ after : RowReader, after.Serves options names → after.cursor.records = rest →
          after.finished = false → ∀ pulls,
            (after.emit (options.rowOf names entry.2)).Follows options names rest pulls :=
        fun after served left going =>
          ih (served.emit _ (by simp [ReadOptions.rowOf])) going left
      by_cases bad : Csv.Malformed names.length entry.2
      · rw [if_pos bad, ← line] at defect
        simp only [← line, defect, serves.malformed] at next
        have counted := advanced.countMalformed
        cases policy : options.malformed with
        | skip =>
          simp only [policy] at next
          exact .of_skip room next rfl rfl rfl rfl bad policy
            (ih counted unfinished remaining) pulls
        | fail =>
          simp only [policy] at next
          exact .of_fault room next rfl rfl rfl rfl bad policy pulls
        | pad =>
          simp only [policy, counted.rowOf_eq] at next
          exact .of_row room next rfl rfl rfl (by rw [if_pos bad]; rfl)
            (ReadOptions.unlimitedAnswers_padded rest policy)
            (fun _ => by simp [Csv.taken, bad, policy]) (emits _ counted remaining unfinished) pulls
      · rw [if_neg bad] at defect
        simp only [defect, advanced.rowOf_eq] at next
        exact .of_row room next rfl rfl rfl (by rw [if_neg bad]; rfl)
          (ReadOptions.unlimitedAnswers_wellFormed rest bad)
          (fun _ => by simp [Csv.taken, bad]) (emits _ advanced remaining unfinished) pulls

end Pulls

theorem length_headerNames (header : Csv.Record) : (headerNames header).length = header.length := by
  unfold headerNames
  cases header with
  | nil => rfl
  | cons first rest =>
    simp only [List.map_cons]
    split <;> simp

/-- Data that open begin with a header in which no name comes again, and the reader is bound to it. -/
theorem exists_of_openData {data : List UInt8} {source : String} {options : ReadOptions}
    {reader : RowReader} (opened : openData data source options = .ok reader) :
    ∃ start header cursor,
      Csv.Cursor.start? options.delimiter options.bufferCapacity data = some start ∧
      start.next = (some header, cursor) ∧ firstRepeated? [] (headerNames header) = none ∧
      reader =
        { source, cursor
          columns := (headerNames header).map fun name =>
            ⟨name, options.declaredKind? name, Observation.none⟩
          nullTokens := options.nullTokens
          malformed := options.malformed
          limit := options.limit
          recordsRead := 0
          rowsEmitted := 0
          malformedRows := 0
          finished := false } := by
  unfold openData at opened
  cases started : Csv.Cursor.start? options.delimiter options.bufferCapacity data with
  | none => simp [started] at opened
  | some start =>
    cases found : start.next with
    | mk header? cursor =>
      cases header? with
      | none => simp [started, found] at opened
      | some header =>
        simp only [started, found, Option.map_some] at opened
        split at opened
        · simp at opened
        · split at opened
          · simp at opened
          · next unrepeated =>
            exact ⟨start, header, cursor, rfl, found, unrepeated, (Except.ok.inj opened).symm⟩

/-- A reader that has been opened stands behind the header of its data and has yielded nothing. -/
theorem opened_of_openData {data : List UInt8} {source : String} {options : ReadOptions}
    {reader : RowReader} (opened : openData data source options = .ok reader) :
    ∃ header, Csv.recordsOf options.delimiter options.bufferCapacity data =
        (1, header) :: reader.cursor.records ∧
      reader.Serves options (headerNames header) ∧ reader.finished = false ∧
      reader.counts = (0, 0, 0) := by
  obtain ⟨start, header, cursor, started, found, -, rfl⟩ := exists_of_openData opened
  have first : start.line = 1 := by
    unfold Csv.Cursor.start? at started
    split at started
    · simp at started
    · split at started
      · simp at started
      · rw [← Option.some.inj started]
  refine ⟨header, ?_, ⟨by simp [Function.comp_def], rfl, rfl, rfl⟩, rfl, rfl⟩
  rw [Csv.recordsOf, started]
  simp only
  rw [Csv.Cursor.records_of_record found, first]

/-- Every row among the answers is that of a record. -/
theorem row_of_mem_answers {options : ReadOptions} {names : List String}
    {records : List Csv.LinedRecord} {row : Row}
    (member : .ok row ∈ options.unlimitedAnswers names records) :
    ∃ entry ∈ records, row = options.rowOf names entry.2 := by
  cases policy : options.malformed with
  | skip =>
    simp only [ReadOptions.unlimitedAnswers, policy, List.mem_map, Except.ok.injEq] at member
    obtain ⟨entry, kept, rfl⟩ := member
    exact ⟨entry, List.mem_of_mem_filter kept, rfl⟩
  | fail =>
    simp only [ReadOptions.unlimitedAnswers, policy, List.mem_append, List.mem_map,
      Except.ok.injEq] at member
    rcases member with ⟨entry, kept, rfl⟩ | failed
    · exact ⟨entry, (List.takeWhile_sublist _).mem kept, rfl⟩
    · simp at failed
  | pad =>
    simp only [ReadOptions.unlimitedAnswers, policy, List.mem_map, Except.ok.injEq] at member
    obtain ⟨entry, kept, rfl⟩ := member
    exact ⟨entry, kept, rfl⟩

/-- Every row among the answers to pulls is that of a record. -/
theorem row_of_answer {options : ReadOptions} {names : List String} {limit : Option Nat}
    {records : List Csv.LinedRecord} {pulls : Nat} {row : Row}
    (yielded : pullOf (ReadOptions.limited limit (options.unlimitedAnswers names records))[pulls]? =
      .ok (some row)) :
    ∃ entry ∈ records, row = options.rowOf names entry.2 := by
  cases found : (ReadOptions.limited limit (options.unlimitedAnswers names records))[pulls]? with
  | none => simp [found, pullOf] at yielded
  | some answer =>
    cases answer with
    | error => simp [found, pullOf] at yielded
    | ok other =>
      obtain rfl : other = row := by simpa [found, pullOf] using yielded
      have member := List.mem_of_getElem? found
      unfold ReadOptions.limited at member
      split at member
      · exact row_of_mem_answers (List.mem_of_mem_take member)
      · exact row_of_mem_answers member

/-- A reader answers every pull as the records of its data are answered under the header and the
policy, cut to the limit. After every pull it has counted the rows it has yielded, the records it
has taken for them and the malformed ones among these. Every row has one cell for each field of the
header. -/
theorem pulls_eq_answers {data : List UInt8} {source : String} {options : ReadOptions}
    {reader : RowReader} (opened : openData data source options = .ok reader) :
    ∃ header records, Csv.recordsOf options.delimiter options.bufferCapacity data =
        (1, header) :: records ∧
      reader.names = headerNames header ∧ reader.names.length = header.length ∧
      (∀ pulls, (reader.pulled pulls).next.1 =
        pullOf (options.answers reader.names records)[pulls]?) ∧
      (∀ pulls row, (reader.pulled pulls).next.1 = .ok (some row) →
        row.cells.length = header.length ∧
          ∃ entry ∈ records, row = options.rowOf reader.names entry.2) ∧
      ∀ pulls,
        let passed := Csv.taken options.malformed header.length records
          (ReadOptions.allowed options.limit pulls)
        (reader.pulled pulls).stats.rowsEmitted =
            ((options.answers reader.names records).take pulls).countP Except.isOk ∧
          (reader.pulled pulls).stats.recordsRead = passed.length ∧
          (reader.pulled pulls).stats.malformedRows =
            passed.countP fun entry => Csv.Malformed header.length entry.2 := by
  obtain ⟨header, read, serves, unfinished, start⟩ := opened_of_openData opened
  simp only [counts, Prod.mk.injEq] at start
  obtain ⟨noRows, noRecords, noMalformed⟩ := start
  have names := serves.names_eq
  have width : reader.names.length = header.length := by rw [names, length_headerNames]
  rw [← names] at serves
  have whole : reader.roomLeft = options.limit := by
    rw [roomLeft, noRows, serves.limit]
    cases options.limit <;> rfl
  have answers : ∀ pulls, (reader.pulled pulls).next.1 =
      pullOf (options.answers reader.names reader.cursor.records)[pulls]? := by
    intro pulls
    rw [(follows serves unfinished rfl pulls).answer, whole]
    rfl
  refine ⟨header, reader.cursor.records, read, names, width, answers, ?_, ?_⟩
  · intro pulls row yielded
    rw [answers pulls] at yielded
    obtain ⟨entry, member, rfl⟩ := row_of_answer yielded
    refine ⟨?_, entry, member, rfl⟩
    rw [← width]
    exact (options.rowOf reader.names entry.2).width
  · intro pulls
    have counted := (follows serves unfinished rfl pulls).counts
    rw [whole, noRows, noRecords, noMalformed, width] at counted
    simp only [counts, Prod.mk.injEq, Nat.zero_add] at counted
    exact counted

/-- A long record with a field that is not UTF-8 ends the reading behind the row before it. -/
theorem pulls_of_failing_record :
    ∃ reader, openData [97, 10, 49, 10, 0xff, 44, 50, 10, 51] "inline"
        ⟨44, none, .fail, [], [], 16⟩ = .ok reader ∧
      (reader.pulled 0).next.1 = .ok (some ⟨["a"], [.integer 1], rfl⟩) ∧
      (reader.pulled 1).next.1 = .error (.invalidUtf8 3 0) ∧
      (reader.pulled 2).next.1 = .ok none ∧
      (reader.pulled 2).stats.recordsRead = 2 := by
  have opens : (openData [97, 10, 49, 10, 0xff, 44, 50, 10, 51] "inline"
      ⟨44, none, .fail, [], [], 16⟩).isOk = true := by decide
  have good : ¬ Csv.Malformed ["a"].length [[49]] := by decide
  have bad : Csv.Malformed ["a"].length [[0xff], [50]] := by decide
  have found : Csv.recordsOf 44 16 [97, 10, 49, 10, 0xff, 44, 50, 10, 51] =
      [(1, [[97]]), (2, [[49]]), (3, [[0xff], [50]]), (4, [[51]])] := by
    have start : Csv.Cursor.start? 44 16 [97, 10, 49, 10, 0xff, 44, 50, 10, 51] =
        some ⟨44, false, 1, [97, 10, 49, 10, 0xff, 44, 50, 10, 51], [], 9⟩ := rfl
    have header : Csv.Cursor.next ⟨44, false, 1, [97, 10, 49, 10, 0xff, 44, 50, 10, 51], [], 9⟩ =
        (some [[97]], ⟨44, false, 2, [49, 10, 0xff, 44, 50, 10, 51], [], 9⟩) := rfl
    have first : Csv.Cursor.next ⟨44, false, 2, [49, 10, 0xff, 44, 50, 10, 51], [], 9⟩ =
        (some [[49]], ⟨44, false, 3, [0xff, 44, 50, 10, 51], [], 9⟩) := rfl
    have second : Csv.Cursor.next ⟨44, false, 3, [0xff, 44, 50, 10, 51], [], 9⟩ =
        (some [[0xff], [50]], ⟨44, false, 4, [51], [], 9⟩) := rfl
    have third : Csv.Cursor.next ⟨44, false, 4, [51], [], 9⟩ =
        (some [[51]], ⟨44, false, 4, [], [], 9⟩) := rfl
    have ended : Csv.Cursor.next ⟨44, false, 4, [], [], 9⟩ =
        (none, ⟨44, false, 4, [], [], 9⟩) := rfl
    simp only [Csv.recordsOf, start, Csv.Cursor.records_of_record header,
      Csv.Cursor.records_of_record first, Csv.Cursor.records_of_record second,
      Csv.Cursor.records_of_record third, Csv.Cursor.records_of_end ended]
  have row : (ReadOptions.mk 44 none .fail [] [] 16).rowOf ["a"] [[49]] =
      ⟨["a"], [.integer 1], rfl⟩ := by decide
  have report : Csv.reportOf ["a"].length (3, [[0xff], [50]]) = .invalidUtf8 3 0 := by decide
  have answered : (ReadOptions.mk 44 none .fail [] [] 16).answers ["a"]
      [(2, [[49]]), (3, [[0xff], [50]]), (4, [[51]])] =
        [.ok ⟨["a"], [.integer 1], rfl⟩, .error (.invalidUtf8 3 0)] := by
    rw [ReadOptions.answers, ReadOptions.unlimitedAnswers_wellFormed _ good,
      ReadOptions.unlimitedAnswers_failed _ bad rfl, row, report]
    rfl
  have names : headerNames [[97]] = ["a"] := by decide
  cases opened : openData [97, 10, 49, 10, 0xff, 44, 50, 10, 51] "inline"
      ⟨44, none, .fail, [], [], 16⟩ with
  | error fault =>
    rw [opened] at opens
    contradiction
  | ok reader =>
    obtain ⟨header, records, read, bound, _, answers, _, counts⟩ := pulls_eq_answers opened
    rw [found, List.cons.injEq, Prod.mk.injEq] at read
    obtain ⟨⟨_, rfl⟩, rfl⟩ := read
    rw [bound, names, answered] at answers
    refine ⟨reader, rfl, answers 0, answers 1, answers 2, (counts 2).2.1.trans ?_⟩
    decide

end RowReader

end Medals
