import Medals.Proofs.Csv.Policy

/-!
# Data without malformed records

`RowReader.pulls_of_records` says how data are read in which a header of distinct names in UTF-8 is
followed by well-formed records only: whatever the policy, every record becomes a row.
-/

namespace Medals

/-- The well-formed records, without their lines. -/
def Csv.wellFormedOf (width : Nat) (records : List Csv.LinedRecord) : List Csv.Record :=
  (records.filter fun entry => ¬ Csv.Malformed width entry.2).map Prod.snd

namespace RowReader

theorem firstRepeated?_eq_none_iff {seen names : List String} :
    firstRepeated? seen names = none ↔ names.Nodup ∧ ∀ name ∈ names, name ∉ seen := by
  induction names generalizing seen with
  | nil => simp [firstRepeated?]
  | cons name rest ih =>
    rw [firstRepeated?, List.nodup_cons, List.forall_mem_cons]
    by_cases known : name ∈ seen
    · simp [known]
    · rw [if_neg (by simpa using known), ih]
      grind

/-- The first record is what a cursor at the start of the data finds. -/
theorem next_of_recordsOf {delimiter : UInt8} {capacity : Nat} {data : List UInt8}
    {header : Csv.LinedRecord} {records : List Csv.LinedRecord}
    (read : Csv.recordsOf delimiter capacity data = header :: records) :
    ∃ cursor, (Csv.Cursor.start? delimiter capacity data).map Csv.Cursor.next =
      some (some header.2, cursor) := by
  unfold Csv.recordsOf at read
  cases started : Csv.Cursor.start? delimiter capacity data with
  | none => simp [started] at read
  | some start =>
    simp only [started] at read
    obtain ⟨after, found, -⟩ := Csv.Cursor.next_of_records_cons read
    exact ⟨after, by rw [Option.map_some, found]⟩

/-- Data open when a header of distinct names in UTF-8 comes first. -/
theorem exists_openData {data : List UInt8} {options : ReadOptions} {header : Csv.LinedRecord}
    {records : List Csv.LinedRecord} (source : String)
    (read : Csv.recordsOf options.delimiter options.bufferCapacity data = header :: records)
    (valid : ∀ field ∈ header.2, Utf8.isValid field = true)
    (distinct : (headerNames header.2).Nodup) :
    ∃ reader, openData data source options = .ok reader := by
  obtain ⟨after, found⟩ := next_of_recordsOf read
  have noInvalid : header.2.findIdx? (fun field => !Utf8.isValid field) = none :=
    List.findIdx?_eq_none_iff.mpr fun field member => by simp [valid field member]
  have noRepeated := firstRepeated?_eq_none_iff.mpr ⟨distinct, fun name _ => List.not_mem_nil⟩
  unfold openData
  simp [found, noInvalid, noRepeated]

/-- Data with the same header open to the same reader, at a position of their own. -/
theorem openData_of_header {data other : List UInt8} {options : ReadOptions}
    {source : String} {reader : RowReader} {header : Csv.LinedRecord}
    {records others : List Csv.LinedRecord} (opened : openData data source options = .ok reader)
    (read : Csv.recordsOf options.delimiter options.bufferCapacity data = header :: records)
    (again : Csv.recordsOf options.delimiter options.bufferCapacity other = header :: others)
    (further : String) :
    ∃ cursor, openData other further options = .ok { reader with source := further, cursor } := by
  obtain ⟨_, first⟩ := next_of_recordsOf read
  obtain ⟨_, second⟩ := next_of_recordsOf again
  unfold openData at opened ⊢
  simp only [first] at opened
  simp only [second]
  split at opened
  · simp at opened
  · split at opened
    · simp at opened
    · exact ⟨_, by rw [← Except.ok.inj opened]⟩

/-- Whether data open is decided by their header. -/
theorem exists_openData_of_header {data other : List UInt8} {options : ReadOptions}
    {source : String} {reader : RowReader} {header : Csv.LinedRecord}
    {records others : List Csv.LinedRecord} (opened : openData data source options = .ok reader)
    (read : Csv.recordsOf options.delimiter options.bufferCapacity data = header :: records)
    (again : Csv.recordsOf options.delimiter options.bufferCapacity other = header :: others)
    (further : String) : ∃ reader, openData other further options = .ok reader := by
  obtain ⟨_, opens⟩ := openData_of_header opened read again further
  exact ⟨_, opens⟩

/-- Records that are all well-formed are all answered with their rows. -/
theorem unlimitedAnswers_of_wellFormed {options : ReadOptions} {names : List String}
    {records : List Csv.LinedRecord}
    (wellFormed : ∀ entry ∈ records, ¬ Csv.Malformed names.length entry.2) :
    options.unlimitedAnswers names records =
      records.map fun entry => .ok (options.rowOf names entry.2) := by
  induction records with
  | nil => exact ReadOptions.unlimitedAnswers_nil
  | cons entry rest ih =>
    rw [ReadOptions.unlimitedAnswers_wellFormed rest (wellFormed entry List.mem_cons_self),
      ih fun other later => wellFormed other (List.mem_cons_of_mem entry later), List.map_cons]

/-- Records of which the malformed ones are left out, or are none, are answered with the rows of the
others. -/
theorem unlimitedAnswers_of_regular {options : ReadOptions} {names : List String}
    {records : List Csv.LinedRecord}
    (regular : options.malformed = .skip ∨
      ∀ entry ∈ records, ¬ Csv.Malformed names.length entry.2) :
    options.unlimitedAnswers names records =
      ((Csv.wellFormedOf names.length records).map (options.rowOf names)).map .ok := by
  rw [Csv.wellFormedOf, List.map_map, List.map_map]
  rcases regular with skips | wellFormed
  · simp [ReadOptions.unlimitedAnswers, skips, Function.comp_def]
  · have all : (records.filter fun entry => ¬ Csv.Malformed names.length entry.2) = records :=
      List.filter_eq_self.mpr (by simpa using wellFormed)
    rw [all, unlimitedAnswers_of_wellFormed wellFormed]
    rfl

/-- Only records of the source are taken. -/
theorem taken_sublist (policy : MalformedPolicy) (width : Nat) (records : List Csv.LinedRecord)
    (answers : Nat) : (Csv.taken policy width records answers).Sublist records := by
  induction records generalizing answers with
  | nil => exact List.Sublist.refl []
  | cons entry rest ih =>
    cases answers with
    | zero => exact List.nil_sublist _
    | succ answers =>
      unfold Csv.taken
      refine List.Sublist.cons_cons entry ?_
      split
      · cases policy with
        | skip => exact ih (answers + 1)
        | fail => exact List.nil_sublist rest
        | pad => exact ih answers
      · exact ih answers

/-- A reader without a limit before records that are answered with rows answers with these, pull by
pull. -/
theorem pulls_of_answers {reader : RowReader} {options : ReadOptions} {names : List String}
    (serves : reader.Serves options names) (unlimited : options.limit = none)
    (unfinished : reader.finished = false) {rows : List Row}
    (answers : options.unlimitedAnswers names reader.cursor.records = rows.map .ok) (pulls : Nat) :
    (reader.pulled pulls).next.1 = .ok rows[pulls]? := by
  have whole : reader.roomLeft = none := by rw [roomLeft, serves.limit, unlimited, Option.map_none]
  rw [(follows serves unfinished rfl pulls).answer, whole, answers, ReadOptions.limited,
    List.getElem?_map]
  cases rows[pulls]? <;> rfl

/-- A reader before well-formed records is answered with their rows, pull by pull, and counts none
of them as malformed. -/
theorem pulls_of_wellFormed {reader : RowReader} {options : ReadOptions} {names : List String}
    (serves : reader.Serves options names) (unlimited : options.limit = none)
    (unfinished : reader.finished = false) (start : reader.malformedRows = 0)
    (wellFormed : ∀ entry ∈ reader.cursor.records, ¬ Csv.Malformed names.length entry.2)
    (pulls : Nat) :
    (reader.pulled pulls).next.1 = .ok
        (reader.cursor.records.map fun entry => options.rowOf names entry.2)[pulls]? ∧
      (reader.pulled pulls).stats.malformedRows = 0 := by
  have answers : options.unlimitedAnswers names reader.cursor.records =
      (reader.cursor.records.map fun entry => options.rowOf names entry.2).map .ok := by
    rw [unlimitedAnswers_of_wellFormed wellFormed, List.map_map]
    rfl
  refine ⟨pulls_of_answers serves unlimited unfinished answers pulls, ?_⟩
  have counted := (follows serves unfinished rfl pulls).counts
  have none : (Csv.taken options.malformed names.length reader.cursor.records
      (ReadOptions.allowed reader.roomLeft pulls)).countP
        (fun entry => Csv.Malformed names.length entry.2) = 0 := by
    refine List.countP_eq_zero.mpr fun entry member => ?_
    simpa using wellFormed entry ((taken_sublist _ _ _ _).mem member)
  simp only [counts, Prod.mk.injEq] at counted
  rw [stats, counted.2.2, start, none]

/-- Data with a header of distinct names and well-formed records open, and every record becomes a
row. -/
theorem pulls_of_records {data : List UInt8} {options : ReadOptions} {header : Csv.LinedRecord}
    {records : List Csv.LinedRecord} {names : List String} (source : String)
    (read : Csv.recordsOf options.delimiter options.bufferCapacity data = header :: records)
    (valid : ∀ field ∈ header.2, Utf8.isValid field = true)
    (bound : headerNames header.2 = names) (distinct : names.Nodup)
    (unlimited : options.limit = none)
    (wellFormed : ∀ entry ∈ records, ¬ Csv.Malformed names.length entry.2) :
    ∃ reader, openData data source options = .ok reader ∧ reader.names = names ∧
      ∀ pulls, (reader.pulled pulls).next.1 = .ok
          (records.map fun entry => options.rowOf names entry.2)[pulls]? ∧
        (reader.pulled pulls).stats.malformedRows = 0 := by
  obtain ⟨reader, opened⟩ := exists_openData source read valid (bound.symm ▸ distinct)
  obtain ⟨_, again, serves, unfinished, start⟩ := opened_of_openData opened
  obtain ⟨rfl, rfl⟩ := List.cons.inj (read.symm.trans again)
  rw [bound] at serves
  simp only [counts, Prod.mk.injEq] at start
  exact ⟨reader, opened, serves.names_eq,
    pulls_of_wellFormed serves unlimited unfinished start.2.2 wellFormed⟩

end RowReader

end Medals
