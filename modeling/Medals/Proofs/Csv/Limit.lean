import Medals.Proofs.Csv.Boundaries
import Medals.Proofs.Csv.Extent
import Medals.Proofs.Csv.WellFormed

/-!
# A limit ends the reading

A reader that has yielded as many rows as allowed has taken no record behind the one of its last row.
`RowReader.pulled_of_limit` says what follows under the policies that let no malformed record end the
reading: the rows are the first ones of a reader without a limit, no block has been fetched behind
the one in which that record ends, and what follows the record shows in nothing.
-/

namespace Medals

namespace Csv

/-- Unless malformed records end the reading, this is a record that is answered with a row. -/
def BecomesRow (policy : MalformedPolicy) (width : Nat) (record : Record) : Prop :=
  policy = .pad ∨ ¬ Malformed width record

instance (policy : MalformedPolicy) (width : Nat) : DecidablePred (BecomesRow policy width) :=
  fun _ => inferInstanceAs (Decidable (_ ∨ _))

theorem forall_mem_getLast?_cons {α : Type} {P : α → Prop} {first : α} {rest : List α} :
    (∀ last ∈ (first :: rest).getLast?, P last) ↔
      (rest = [] → P first) ∧ ∀ last ∈ rest.getLast?, P last := by
  cases rest <;> simp

/-- How many of the records become rows. -/
def rowCount (policy : MalformedPolicy) (width : Nat) (records : List LinedRecord) : Nat :=
  records.countP fun entry => BecomesRow policy width entry.2

theorem rowCount_cons (policy : MalformedPolicy) (width : Nat) (entry : LinedRecord)
    (rest : List LinedRecord) :
    rowCount policy width (entry :: rest) =
      rowCount policy width rest + if BecomesRow policy width entry.2 then 1 else 0 := by
  simp [rowCount, List.countP_cons]

theorem rowCount_eq_zero {policy : MalformedPolicy} {width : Nat} {records : List LinedRecord} :
    rowCount policy width records = 0 ↔ ∀ entry ∈ records, ¬ BecomesRow policy width entry.2 := by
  simp [rowCount]

section Taken

variable {policy : MalformedPolicy} {width : Nat} (lenient : policy ≠ .fail)

include lenient

/-- A record that becomes a row is one of the answers, and another one none. -/
theorem taken_cons (entry : LinedRecord) (rest : List LinedRecord) (answers : Nat) :
    taken policy width (entry :: rest) (answers + 1) =
      entry :: taken policy width rest
        (if BecomesRow policy width entry.2 then answers else answers + 1) := by
  by_cases bad : Malformed width entry.2 <;> cases policy <;> simp_all [taken, BecomesRow]

/-- Among enough records just those are taken that lead up to the last row. -/
theorem taken_of_enough {records : List LinedRecord} {answers : Nat}
    (enough : answers ≤ rowCount policy width records) :
    taken policy width records answers <+: records ∧
      rowCount policy width (taken policy width records answers) = answers ∧
      ∀ last ∈ (taken policy width records answers).getLast?, BecomesRow policy width last.2 := by
  induction records generalizing answers with
  | nil =>
    obtain rfl : answers = 0 := Nat.le_zero.mp enough
    simp [taken, rowCount]
  | cons entry rest ih =>
    cases answers with
    | zero => simp [taken, rowCount]
    | succ answers =>
      rw [rowCount_cons] at enough
      rw [taken_cons lenient, forall_mem_getLast?_cons, rowCount_cons]
      by_cases row : BecomesRow policy width entry.2
      · rw [if_pos row] at enough ⊢
        obtain ⟨front, count, final⟩ := ih (Nat.le_of_succ_le_succ enough)
        exact ⟨List.cons_prefix_cons.mpr ⟨rfl, front⟩, by rw [count, if_pos row], fun _ => row, final⟩
      · rw [if_neg row] at enough ⊢
        obtain ⟨front, count, final⟩ := ih enough
        refine ⟨List.cons_prefix_cons.mpr ⟨rfl, front⟩, by rw [count, if_neg row], fun none => ?_,
          final⟩
        rw [none] at count
        contradiction

/-- Records of which the last one becomes a row are all taken for their rows. -/
theorem taken_eq_self {passed : List LinedRecord}
    (final : ∀ last ∈ passed.getLast?, BecomesRow policy width last.2) :
    taken policy width passed (rowCount policy width passed) = passed := by
  induction passed with
  | nil => rfl
  | cons entry rest ih =>
    rw [forall_mem_getLast?_cons] at final
    rw [rowCount_cons]
    by_cases row : BecomesRow policy width entry.2
    · rw [if_pos row, taken_cons lenient, if_pos row, ih final.2]
    · obtain ⟨last, found⟩ := Option.isSome_iff_exists.mp
        (List.getLast?_isSome.mpr fun none => row (final.1 none))
      have some : rowCount policy width rest ≠ 0 := fun none =>
        rowCount_eq_zero.mp none last (List.mem_of_getLast? found) (final.2 last found)
      obtain ⟨fewer, count⟩ := Nat.exists_eq_succ_of_ne_zero some
      rw [if_neg row, Nat.add_zero, count, taken_cons lenient, if_neg row, ← Nat.succ_eq_add_one,
        ← count, ih final.2]

/-- Records behind those that suffice are not taken. -/
theorem taken_append {front : List LinedRecord} {answers : Nat}
    (enough : answers ≤ rowCount policy width front) (behind : List LinedRecord) :
    taken policy width (front ++ behind) answers = taken policy width front answers := by
  induction front generalizing answers with
  | nil =>
    obtain rfl : answers = 0 := Nat.le_zero.mp enough
    cases behind <;> simp [taken]
  | cons entry rest ih =>
    cases answers with
    | zero => rfl
    | succ answers =>
      rw [rowCount_cons] at enough
      rw [List.cons_append, taken_cons lenient, taken_cons lenient]
      by_cases row : BecomesRow policy width entry.2
      · rw [if_pos row] at enough ⊢
        rw [ih (Nat.le_of_succ_le_succ enough)]
      · rw [if_neg row] at enough ⊢
        rw [ih enough]

end Taken

/-- These are the records behind the header that are taken for some number of rows: so many of them
become rows, and the last one does. -/
structure TakenFor (policy : MalformedPolicy) (rows : Nat) (extents : List Extent) (header : Extent)
    (taken : List Extent) : Prop where
  found : header :: taken <+: extents
  rows : rowCount policy header.entry.2.length (taken.map Extent.entry) = rows
  final : ∀ last ∈ (taken.map Extent.entry).getLast?,
    BecomesRow policy header.entry.2.length last.2

namespace TakenFor

variable {policy : MalformedPolicy} {rows : Nat} {extents rest taken : List Extent} {header : Extent}

/-- For no rows no records are taken. -/
theorem eq_nil (takenFor : TakenFor policy 0 extents header taken) : taken = [] := by
  have none := rowCount_eq_zero.mp takenFor.rows
  rw [← List.map_eq_nil_iff, ← List.getLast?_eq_none_iff, Option.eq_none_iff_forall_not_mem]
  exact fun last found => none last (List.mem_of_getLast? found) (takenFor.final last found)

/-- The last record taken, or the header. -/
theorem getElem?_last (takenFor : TakenFor policy rows extents header taken) :
    extents[taken.length]? = some (taken.getLastD header) := by
  obtain ⟨behind, rfl⟩ := takenFor.found
  rw [List.getElem?_append_left (by simp), List.getLastD_eq_getLast?, ← List.getLast?_cons,
    List.getLast?_eq_getElem?, List.length_cons, Nat.add_sub_cancel]

/-- The records of the data are the header, these and those that follow. -/
theorem recordsOf {delimiter : UInt8} {capacity : Nat} {data : List UInt8} (positive : 0 < capacity)
    (takenFor : TakenFor policy rows (extentsOf delimiter capacity data) header taken) :
    ∃ behind, Csv.recordsOf delimiter capacity data =
      header.entry :: (taken.map Extent.entry ++ behind) := by
  obtain ⟨behind, found⟩ := takenFor.found
  refine ⟨behind.map Extent.entry, ?_⟩
  rw [recordsOf_eq_extentsOf delimiter positive, ← found, List.map_append, List.map_cons,
    List.cons_append]

/-- They are the same in all data that begin with the bytes up to the end of the last one, if a byte
terminates it. -/
theorem of_take {delimiter : UInt8} {capacity : Nat} {data other : List UInt8}
    (takenFor : TakenFor policy rows (extentsOf delimiter capacity data) header taken)
    (terminated : (taken.getLastD header).terminated = true)
    (same : other.take (taken.getLastD header).stop = data.take (taken.getLastD header).stop) :
    TakenFor policy rows (extentsOf delimiter capacity other) header taken := by
  obtain ⟨behind, found⟩ := takenFor.found
  have ends : (header :: taken).dropLast ++ [taken.getLastD header] = header :: taken :=
    List.dropLast_append_getLast? _ (by rw [List.getLastD_eq_getLast?, List.getLast?_cons]; rfl)
  rw [← ends, ← List.append_cons] at found
  obtain ⟨others, again⟩ := extentsOf_of_take found.symm terminated same
  rw [List.append_cons, ends] at again
  exact ⟨⟨others, again.symm⟩, takenFor.rows, takenFor.final⟩

/-- Among enough records they exist. -/
theorem exists_of_enough (lenient : policy ≠ .fail)
    (enough : rows ≤ rowCount policy header.entry.2.length (rest.map Extent.entry)) :
    ∃ taken, TakenFor policy rows (header :: rest) header taken := by
  obtain ⟨front, count, final⟩ := taken_of_enough lenient enough
  generalize Csv.taken policy header.entry.2.length (rest.map Extent.entry) rows = passed at *
  have same : (rest.take passed.length).map Extent.entry = passed := by
    rw [List.map_take, ← List.prefix_iff_eq_take.mp front]
  exact ⟨rest.take passed.length,
    ⟨List.cons_prefix_cons.mpr ⟨rfl, List.take_prefix _ _⟩, same.symm ▸ count, same.symm ▸ final⟩⟩

end TakenFor

end Csv

namespace ReadOptions

section Lenient

variable {options : ReadOptions} (lenient : options.malformed ≠ .fail) (names : List String)

include lenient

/-- Where nothing ends the reading, the answers are the rows of the records that become rows. -/
theorem unlimitedAnswers_of_lenient (records : List Csv.LinedRecord) :
    options.unlimitedAnswers names records =
      (records.filter fun entry => Csv.BecomesRow options.malformed names.length entry.2).map
        fun entry => .ok (options.rowOf names entry.2) := by
  cases policy : options.malformed <;> simp_all [unlimitedAnswers, Csv.BecomesRow]

theorem length_unlimitedAnswers (records : List Csv.LinedRecord) :
    (options.unlimitedAnswers names records).length =
      Csv.rowCount options.malformed names.length records := by
  rw [unlimitedAnswers_of_lenient lenient, List.length_map, Csv.rowCount,
    List.countP_eq_length_filter]

/-- All of them are rows. -/
theorem exists_row_of_lt {records : List Csv.LinedRecord} {index : Nat}
    (inside : index < Csv.rowCount options.malformed names.length records) :
    ∃ row, (options.unlimitedAnswers names records)[index]? = some (.ok row) := by
  rw [Csv.rowCount, List.countP_eq_length_filter] at inside
  rw [unlimitedAnswers_of_lenient lenient, List.getElem?_map, List.getElem?_eq_getElem inside]
  exact ⟨_, rfl⟩

theorem countP_isOk_unlimitedAnswers (records : List Csv.LinedRecord) :
    (options.unlimitedAnswers names records).countP Except.isOk =
      Csv.rowCount options.malformed names.length records := by
  rw [← length_unlimitedAnswers lenient, unlimitedAnswers_of_lenient lenient]
  refine List.countP_eq_length.mpr fun answer member => ?_
  obtain ⟨_, _, rfl⟩ := List.mem_map.mp member
  rfl

theorem unlimitedAnswers_append (front behind : List Csv.LinedRecord) :
    options.unlimitedAnswers names (front ++ behind) =
      options.unlimitedAnswers names front ++ options.unlimitedAnswers names behind := by
  simp only [unlimitedAnswers_of_lenient lenient, List.filter_append, List.map_append]

/-- Records behind those that suffice for the limit are not answered. -/
theorem answers_append {limit : Nat} (limited : options.limit = some limit)
    {front : List Csv.LinedRecord}
    (rows : Csv.rowCount options.malformed names.length front = limit)
    (behind : List Csv.LinedRecord) :
    options.answers names (front ++ behind) = options.unlimitedAnswers names front := by
  rw [answers, limited, ReadOptions.limited, unlimitedAnswers_append lenient]
  exact List.take_left' ((length_unlimitedAnswers lenient names front).trans rows)

end Lenient

end ReadOptions

namespace RowReader

/-- A limit does not show when data are opened. -/
theorem openData_limit (data : List UInt8) (source : String) (options : ReadOptions)
    (limit : Option Nat) :
    openData data source { options with limit } =
      (openData data source options).map fun reader => { reader with limit } := by
  unfold openData
  dsimp only
  cases (Csv.Cursor.start? options.delimiter options.bufferCapacity data).map Csv.Cursor.next with
  | none => rfl
  | some first =>
    obtain ⟨header?, cursor⟩ := first
    cases header? with
    | none => rfl
    | some header =>
      dsimp only
      cases header.findIdx? fun field => !Utf8.isValid field with
      | some index => rfl
      | none =>
        dsimp only
        cases firstRepeated? [] (headerNames header) <;> rfl

theorem limit_pulled (reader : RowReader) (pulls : Nat) :
    (reader.pulled pulls).limit = reader.limit := by
  induction pulls generalizing reader with
  | zero => rfl
  | succ pulls ih =>
    refine (ih reader.next.2).trans ?_
    fun_induction RowReader.next reader <;> first | rfl | assumption

/-- The columns after an answer: the cells of a row have been taken into account. -/
def columnsAfter (columns : List SourceColumn) :
    Except Fault (Option Row) → List SourceColumn
  | .ok (some row) =>
    columns.zipWith (fun column cell => { column with seen := column.seen.observe cell }) row.cells
  | _ => columns

/-- Nothing but a row that is yielded changes the columns. -/
theorem columns_next (reader : RowReader) :
    reader.next.2.columns = columnsAfter reader.columns reader.next.1 := by
  fun_induction RowReader.next reader with
  | case1 => rfl
  | case2 => rfl
  | case3 => rfl
  | case4 => rfl
  | case5 reader _ _ record cursor _ after fault _ after' _ ih => exact ih
  | case6 => rfl
  | case7 => rfl

/-- Readers with the same columns that give the same answers have seen the same. -/
theorem columns_pulled {one other : RowReader} (same : one.columns = other.columns)
    (answers : ∀ pulls, (one.pulled pulls).next.1 = (other.pulled pulls).next.1) (pulls : Nat) :
    (one.pulled pulls).columns = (other.pulled pulls).columns := by
  induction pulls generalizing one other with
  | zero => exact same
  | succ pulls ih =>
    refine ih ?_ fun more => answers (more + 1)
    rw [columns_next, columns_next, same, show one.next.1 = other.next.1 from answers 0]

section Reading

variable {extents : List Csv.Extent} {capacity total : Nat}

/-- A pull leaves the reader behind the last of the records it has read, unless it finds the end of
the data before the limit is reached. -/
theorem behind_next (reader : RowReader)
    (behind : reader.cursor.Behind extents capacity total reader.recordsRead) :
    reader.next.2.cursor.Behind extents capacity total reader.next.2.recordsRead ∨
      reader.next.2.finished = true ∧ reader.next.2.limitReached = false := by
  fun_induction RowReader.next reader with
  | case1 => exact .inl behind
  | case2 => exact .inl behind
  | case3 reader _ room => exact .inr ⟨rfl, by simpa [limitReached] using room⟩
  | case4 reader _ _ record cursor found => exact .inl (behind.next found)
  | case5 reader _ _ record cursor found _ _ _ _ _ ih => exact ih (behind.next found)
  | case6 reader _ _ record cursor found => exact .inl (behind.next found)
  | case7 reader _ _ record cursor found => exact .inl (behind.next found)

theorem behind_pulled (reader : RowReader)
    (behind : reader.cursor.Behind extents capacity total reader.recordsRead) (pulls : Nat) :
    (reader.pulled pulls).cursor.Behind extents capacity total (reader.pulled pulls).recordsRead ∨
      (reader.pulled pulls).finished = true ∧ (reader.pulled pulls).limitReached = false := by
  induction pulls generalizing reader with
  | zero => exact .inl behind
  | succ pulls ih =>
    rcases behind_next reader behind with behind | ⟨finished, room⟩
    · exact ih reader.next.2 behind
    · rw [pulled, pulled_of_finished finished]
      exact .inr ⟨finished, room⟩

/-- A reader that is opened stands behind the header. -/
theorem behind_of_openData {data : List UInt8} {source : String} {options : ReadOptions}
    {reader : RowReader} (positive : 0 < options.bufferCapacity)
    (opened : openData data source options = .ok reader) :
    reader.cursor.Behind (Csv.extentsOf options.delimiter options.bufferCapacity data)
      options.bufferCapacity data.length reader.recordsRead := by
  obtain ⟨start, header, cursor, started, found, -, rfl⟩ := exists_of_openData opened
  exact Csv.Cursor.behind_header positive started found

end Reading

/-- A reader answers as the records behind its header are answered, and counts the records that are
taken for the answers. -/
theorem reads_of_openData {data : List UInt8} {source : String} {options : ReadOptions}
    {reader : RowReader} {header : Csv.LinedRecord} {records : List Csv.LinedRecord}
    (opened : openData data source options = .ok reader)
    (read : Csv.recordsOf options.delimiter options.bufferCapacity data = header :: records) :
    reader.names.length = header.2.length ∧ ∀ pulls,
      (reader.pulled pulls).next.1 = pullOf (options.answers reader.names records)[pulls]? ∧
      { (reader.pulled pulls).stats with bytesRead := 0 } =
        let taken := Csv.taken options.malformed header.2.length records
          (ReadOptions.allowed options.limit pulls)
        ⟨taken.length, ((options.answers reader.names records).take pulls).countP Except.isOk,
          taken.countP fun entry => Csv.Malformed header.2.length entry.2, 0⟩ := by
  obtain ⟨first, same, serves, unfinished, start⟩ := opened_of_openData opened
  obtain ⟨rfl, rfl⟩ := List.cons.inj (read.symm.trans same)
  simp only [counts, Prod.mk.injEq] at start
  obtain ⟨noRows, noRecords, noMalformed⟩ := start
  have names := serves.names_eq
  have width : reader.names.length = first.length := by rw [names, length_headerNames]
  have room : reader.roomLeft = options.limit := by
    rw [roomLeft, noRows, serves.limit]
    cases options.limit <;> rfl
  rw [← names] at serves
  refine ⟨width, fun pulls => ?_⟩
  obtain ⟨answer, counted⟩ := follows serves unfinished rfl pulls
  simp only [room, noRows, noRecords, noMalformed, width, counts, Prod.mk.injEq,
    Nat.zero_add] at answer counted
  obtain ⟨rows, read, malformed⟩ := counted
  refine ⟨answer, ?_⟩
  simp only [stats, rows, read, malformed]
  rfl

section Limited

variable {data other : List UInt8} {source : String} {options : ReadOptions} {limit : Nat}
  {reader : RowReader} {header : Csv.LinedRecord} {passed behind behind' : List Csv.LinedRecord}
  (lenient : options.malformed ≠ .fail) (limited : options.limit = some limit)

include lenient limited

/-- A reader that has yielded all rows allowed has been pulled for each of them, and there are enough
records. -/
theorem enough_of_emitted {names : List String} {records : List Csv.LinedRecord} {pulls : Nat}
    (emitted : ((options.answers names records).take pulls).countP Except.isOk = limit) :
    limit ≤ pulls ∧
      limit ≤ Csv.rowCount options.malformed names.length records := by
  have bound := @List.countP_le_length _ Except.isOk ((options.answers names records).take pulls)
  rw [emitted, List.length_take, ReadOptions.answers, limited, ReadOptions.limited,
    List.length_take, ReadOptions.length_unlimitedAnswers lenient] at bound
  omega

variable (opened : openData data source options = .ok reader)

include opened

/-- The records behind those that suffice for the limit show in nothing. -/
theorem pulls_of_sufficient
    (read : Csv.recordsOf options.delimiter options.bufferCapacity data =
      header :: (passed ++ behind))
    (rows : Csv.rowCount options.malformed header.2.length passed = limit) (pulls : Nat) :
    (reader.pulled pulls).next.1 =
        pullOf (options.unlimitedAnswers reader.names passed)[pulls]? ∧
      { (reader.pulled pulls).stats with bytesRead := 0 } =
        let taken := Csv.taken options.malformed header.2.length passed (min pulls limit)
        ⟨taken.length,
          ((options.unlimitedAnswers reader.names passed).take pulls).countP Except.isOk,
          taken.countP fun entry => Csv.Malformed header.2.length entry.2, 0⟩ := by
  obtain ⟨width, reads⟩ := reads_of_openData opened read
  have whole := ReadOptions.answers_append lenient reader.names limited (width ▸ rows) behind
  have enough : min pulls limit ≤ Csv.rowCount options.malformed header.2.length passed :=
    rows ▸ Nat.min_le_right pulls limit
  have taken := Csv.taken_append lenient enough behind
  obtain ⟨answer, counted⟩ := reads pulls
  rw [whole] at answer
  rw [whole, limited, ReadOptions.allowed, taken] at counted
  exact ⟨answer, counted⟩

/-- Data with the same header and the same records up to the last row show the same. -/
theorem showsAlike_of_sufficient
    (read : Csv.recordsOf options.delimiter options.bufferCapacity data =
      header :: (passed ++ behind))
    (again : Csv.recordsOf options.delimiter options.bufferCapacity other =
      header :: (passed ++ behind'))
    (rows : Csv.rowCount options.malformed header.2.length passed = limit) :
    ∃ second, openData other source options = .ok second ∧ second.ShowsAlike reader := by
  obtain ⟨cursor, opens⟩ := openData_of_header opened read again source
  have first := pulls_of_sufficient lenient limited opened read rows
  have second := pulls_of_sufficient lenient limited opens again rows
  have answers := fun pulls => (second pulls).1.trans (first pulls).1.symm
  refine ⟨_, opens, rfl, answers, fun pulls => ?_, fun pulls => ?_⟩
  · have columns := columns_pulled (by rfl) answers pulls
    rw [schema, schema, columns]
  · exact (second pulls).2.trans (first pulls).2.symm

/-- The rows are the first ones of the reader without the limit. -/
theorem unlimited_of_sufficient
    (read : Csv.recordsOf options.delimiter options.bufferCapacity data =
      header :: (passed ++ behind))
    (rows : Csv.rowCount options.malformed header.2.length passed = limit) :
    ∃ unlimited, openData data source { options with limit := none } = .ok unlimited ∧
      unlimited.names = reader.names ∧
      (∀ pull < limit, ∃ row, (reader.pulled pull).next.1 = .ok (some row) ∧
        (unlimited.pulled pull).next.1 = .ok (some row)) ∧
      ∀ pull, limit ≤ pull → (reader.pulled pull).next.1 = .ok none := by
  have opens : openData data source { options with limit := none } =
      .ok { reader with limit := none } := by
    rw [openData_limit, opened]
    rfl
  obtain ⟨width, reads⟩ := reads_of_openData opens read
  have sufficient := pulls_of_sufficient lenient limited opened read rows
  have rows' : Csv.rowCount options.malformed reader.names.length passed = limit := width ▸ rows
  have length : (options.unlimitedAnswers reader.names passed).length = limit :=
    (ReadOptions.length_unlimitedAnswers lenient reader.names passed).trans rows'
  have whole : ({ options with limit := none } : ReadOptions).answers reader.names
      (passed ++ behind) = options.unlimitedAnswers reader.names passed ++
        options.unlimitedAnswers reader.names behind :=
    ReadOptions.unlimitedAnswers_append lenient reader.names passed behind
  refine ⟨_, opens, rfl, fun pull inside => ?_, fun pull outside => ?_⟩
  · obtain ⟨row, found⟩ :=
      ReadOptions.exists_row_of_lt lenient reader.names (inside.trans_eq rows'.symm)
    have served : (({ options with limit := none } : ReadOptions).answers reader.names
        (passed ++ behind))[pull]? = some (.ok row) := by
      rw [whole, List.getElem?_append_left (inside.trans_eq length.symm), found]
    exact ⟨row, by rw [(sufficient pull).1, found]; rfl,
      (reads pull).1.trans (congrArg pullOf served)⟩
  · rw [(sufficient pull).1, List.getElem?_eq_none (length.trans_le outside)]
    rfl

/-- What has been read when all rows allowed have been yielded. -/
theorem stats_of_takenFor (positive : 0 < options.bufferCapacity) {header : Csv.Extent}
    {taken : List Csv.Extent}
    (takenFor : Csv.TakenFor options.malformed limit
      (Csv.extentsOf options.delimiter options.bufferCapacity data) header taken)
    {pulls : Nat} (enough : limit ≤ pulls) :
    (reader.pulled pulls).stats.rowsEmitted = limit ∧
      (reader.pulled pulls).stats.recordsRead = taken.length ∧
      (reader.pulled pulls).stats.bytesRead ≤ options.bufferCapacity *
        ((taken.getLastD header).stop ⌈/⌉ options.bufferCapacity) := by
  obtain ⟨behind, read⟩ := takenFor.recordsOf positive
  have width := (reads_of_openData opened read).1
  have sufficient := (pulls_of_sufficient lenient limited opened read takenFor.rows pulls).2
  have all := Csv.taken_eq_self lenient takenFor.final
  rw [takenFor.rows] at all
  rw [Nat.min_eq_right enough, all] at sufficient
  have recordsRead : (reader.pulled pulls).stats.recordsRead = taken.length :=
    (congrArg ReadStats.recordsRead sufficient).trans (List.length_map _)
  have emitted : (reader.pulled pulls).stats.rowsEmitted = limit := by
    refine (congrArg ReadStats.rowsEmitted sufficient).trans ?_
    dsimp only
    rw [List.take_of_length_le, ReadOptions.countP_isOk_unlimitedAnswers lenient, width]
    · exact takenFor.rows
    · rw [ReadOptions.length_unlimitedAnswers lenient, width, takenFor.rows]
      exact enough
  refine ⟨emitted, recordsRead, ?_⟩
  rcases behind_pulled reader (behind_of_openData positive opened) pulls with behind | ⟨-, room⟩
  · refine behind.fetched_le positive ?_
    change (Csv.extentsOf _ _ _)[(reader.pulled pulls).stats.recordsRead]? = _
    rw [recordsRead, takenFor.getElem?_last]
  · -- The limit has been reached, so the end of the data has not been looked for.
    obtain ⟨_, _, serves, -⟩ := opened_of_openData opened
    have bound : (reader.pulled pulls).limit = some limit :=
      (limit_pulled reader pulls).trans (serves.limit.trans limited)
    have full : (reader.pulled pulls).limitReached = true := by
      rw [limitReached, bound]
      exact decide_eq_true emitted.ge
    exact absurd (full.symm.trans room) (by decide)

end Limited

/-- A limit ends the reading with the record that becomes the last row allowed, or with the header
when no row is allowed, provided that no malformed record ends it. The rows are the first ones of the
reader without the limit. However often the reader is pulled from then on, it has read the records up
to that one and fetched no block behind the one in which that record ends. If a byte terminates that
record, all data that begin with the same bytes up to its end show the same. -/
theorem pulled_of_limit {data : List UInt8} {source : String} {options : ReadOptions} {limit : Nat}
    {reader : RowReader} {pulls : Nat} (positive : 0 < options.bufferCapacity)
    (lenient : options.malformed ≠ .fail) (limited : options.limit = some limit)
    (opened : openData data source options = .ok reader)
    (emitted : (reader.pulled pulls).stats.rowsEmitted = limit) :
    ∃ header taken, Csv.TakenFor options.malformed limit
        (Csv.extentsOf options.delimiter options.bufferCapacity data) header taken ∧
      (limit = 0 → taken = []) ∧
      (∃ unlimited, openData data source { options with limit := none } = .ok unlimited ∧
        unlimited.names = reader.names ∧
        (∀ pull < limit, ∃ row, (reader.pulled pull).next.1 = .ok (some row) ∧
          (unlimited.pulled pull).next.1 = .ok (some row)) ∧
        ∀ pull, limit ≤ pull → (reader.pulled pull).next.1 = .ok none) ∧
      let last := taken.getLastD header
      (∀ later, pulls ≤ later →
        (reader.pulled later).stats.rowsEmitted = limit ∧
        (reader.pulled later).stats.recordsRead = taken.length ∧
        (reader.pulled later).stats.bytesRead ≤
          options.bufferCapacity * (last.stop ⌈/⌉ options.bufferCapacity)) ∧
      (last.terminated = true → ∀ other, other.take last.stop = data.take last.stop →
        ∃ second, openData other source options = .ok second ∧ second.ShowsAlike reader) := by
  obtain ⟨_, read, -⟩ := opened_of_openData opened
  have records := read
  rw [Csv.recordsOf_eq_extentsOf options.delimiter positive, List.map_eq_cons_iff] at records
  obtain ⟨header, rest, extents, first, others⟩ := records
  rw [← first, ← others] at read
  obtain ⟨width, reads⟩ := reads_of_openData opened read
  have counted := congrArg ReadStats.rowsEmitted (reads pulls).2
  obtain ⟨enoughPulls, enough⟩ := enough_of_emitted lenient limited (counted.symm.trans emitted)
  rw [width] at enough
  obtain ⟨taken, takenFor⟩ := Csv.TakenFor.exists_of_enough lenient enough
  rw [← extents] at takenFor
  obtain ⟨behind, found⟩ := takenFor.recordsOf positive
  refine ⟨header, taken, takenFor, fun zero => (zero ▸ takenFor).eq_nil,
    unlimited_of_sufficient lenient limited opened found takenFor.rows, fun later enough =>
      stats_of_takenFor lenient limited opened positive takenFor (enoughPulls.trans enough),
    fun terminated other same => ?_⟩
  obtain ⟨others, again⟩ := (takenFor.of_take terminated same).recordsOf positive
  exact showsAlike_of_sufficient lenient limited opened found again takenFor.rows

/-- The row ends with the second block of four bytes. The record before it has a field too many and
is left out. -/
theorem pulled_of_one_row :
    ∃ reader, openData [97, 10, 49, 44, 50, 10, 51, 10, 52, 10, 53] "inline"
        ⟨44, some 1, .skip, [], [], 4⟩ = .ok reader ∧
      (reader.pulled 1).stats.rowsEmitted = 1 ∧
      (reader.pulled 2).stats.recordsRead = 2 ∧
      (reader.pulled 2).stats.bytesRead ≤ 8 ∧
      ∀ other : List UInt8, other.take 8 = [97, 10, 49, 44, 50, 10, 51, 10] →
        ∃ second, openData other "inline" ⟨44, some 1, .skip, [], [], 4⟩ = .ok second ∧
          second.ShowsAlike reader := by
  have opens : (openData [97, 10, 49, 44, 50, 10, 51, 10, 52, 10, 53] "inline"
      ⟨44, some 1, .skip, [], [], 4⟩).isOk = true := by decide
  have extents : Csv.extentsOf 44 4 [97, 10, 49, 44, 50, 10, 51, 10, 52, 10, 53] =
      [⟨(1, [[97]]), 2, true⟩, ⟨(2, [[49], [50]]), 6, true⟩, ⟨(3, [[51]]), 8, true⟩,
        ⟨(4, [[52]]), 10, true⟩, ⟨(5, [[53]]), 11, false⟩] := by decide
  have found := Csv.recordsOf_eq_extentsOf 44 (show 0 < 4 by decide)
    [97, 10, 49, 44, 50, 10, 51, 10, 52, 10, 53]
  rw [extents] at found
  cases opened : openData [97, 10, 49, 44, 50, 10, 51, 10, 52, 10, 53] "inline"
      ⟨44, some 1, .skip, [], [], 4⟩ with
  | error fault =>
    rw [opened] at opens
    contradiction
  | ok reader =>
    obtain ⟨header, read, serves, -⟩ := opened_of_openData opened
    obtain rfl : [[97]] = header := congrArg Prod.snd (List.cons.inj (found.symm.trans read)).1
    obtain ⟨-, reads⟩ := reads_of_openData opened found
    rw [serves.names_eq] at reads
    have emitted : (reader.pulled 1).stats.rowsEmitted = 1 :=
      (congrArg ReadStats.rowsEmitted (reads 1).2).trans (by decide)
    have recordsRead : (reader.pulled 2).stats.recordsRead = 2 :=
      (congrArg ReadStats.recordsRead (reads 2).2).trans (by decide)
    obtain ⟨header, taken, takenFor, -, -, stats, others⟩ :=
      pulled_of_limit (by decide) (by decide) rfl opened emitted
    have two : taken.length = 2 := (stats 2 (by decide)).2.1.symm.trans recordsRead
    have records := List.prefix_iff_eq_take.mp takenFor.found
    rw [extents, List.length_cons, two] at records
    obtain ⟨rfl, rfl⟩ := List.cons.inj records
    exact ⟨reader, rfl, emitted, recordsRead, (stats 2 (by decide)).2.2, others rfl⟩

end RowReader

end Medals
