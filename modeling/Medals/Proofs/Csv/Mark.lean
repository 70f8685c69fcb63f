import Medals.Proofs.Csv.Boundaries

/-!
# A byte order mark before the data

A mark is dropped twice: by the reading position, when the first block holds the whole mark, and from
the first column name. `RowReader.openData_of_mark` says when this makes a mark invisible. Blocks of
three bytes end the data behind the mark, and in smaller ones the mark becomes the beginning of an
unquoted first field, which is undone only if the header begins with such a field.
-/

namespace Medals

namespace Csv

namespace Scan

/-- The scan of the same bytes behind a mark in an unquoted first field. -/
def behindMark (scan : Scan) : Scan :=
  match scan.fields.reverse with
  | [] => { scan with field := scan.field ++ Utf8.mark.reverse }
  | first :: others => { scan with fields := ((Utf8.mark ++ first) :: others).reverse }

end Scan

/-- A record with a mark before its first field. -/
def Record.marked : Record → Record
  | [] => []
  | first :: others => (Utf8.mark ++ first) :: others

namespace Scan

theorem behindMark_first (phase : Phase) (line : Nat) (field : List UInt8) :
    (⟨phase, line, field, []⟩ : Scan).behindMark =
      ⟨phase, line, field ++ Utf8.mark.reverse, []⟩ := rfl

theorem behindMark_later (phase : Phase) (line : Nat) (field : List UInt8)
    (later : List (List UInt8)) (first : List UInt8) :
    (⟨phase, line, field, later ++ [first]⟩ : Scan).behindMark =
      ⟨phase, line, field, later ++ [Utf8.mark ++ first]⟩ := by
  simp [behindMark]

/-- No field has been finished yet, or some have been and the first of them is the last listed. -/
theorem fields_cases (fields : List (List UInt8)) :
    fields = [] ∨ ∃ later first, fields = later ++ [first] := by
  rcases List.eq_nil_or_concat fields with empty | ⟨later, first, found⟩
  · exact .inl empty
  · exact .inr ⟨later, first, found.trans (List.concat_eq_append)⟩

theorem record_behindMark (scan : Scan) : scan.behindMark.record = scan.record.marked := by
  obtain ⟨phase, line, field, fields⟩ := scan
  rcases fields_cases fields with rfl | ⟨later, first, rfl⟩
  · rw [behindMark_first]
    simp [record, Record.marked]
  · rw [behindMark_later]
    simp [record, Record.marked]

/-- A byte is taken behind a mark as it is taken without. -/
theorem take_behindMark (delimiter : UInt8) (scan : Scan) (byte : UInt8) :
    scan.behindMark.take delimiter byte =
      ((scan.take delimiter byte).1.behindMark, (scan.take delimiter byte).2) := by
  obtain ⟨phase, line, field, fields⟩ := scan
  rcases fields_cases fields with rfl | ⟨later, first, rfl⟩
  · rw [behindMark_first, take, take]
    cases step delimiter phase byte with
    | mk phase action => cases action <;> simp [behindMark]
  · rw [behindMark_later, take, take]
    cases step delimiter phase byte with
    | mk phase action => cases action <;> simp [behindMark]

theorem block_behindMark (delimiter : UInt8) (scan : Scan) (bytes : List UInt8) :
    scan.behindMark.block delimiter bytes =
      ((scan.block delimiter bytes).1.behindMark, (scan.block delimiter bytes).2) := by
  induction bytes generalizing scan with
  | nil => rfl
  | cons byte rest ih =>
    rw [block, block, take_behindMark]
    cases scan.take delimiter byte with
    | mk after ended =>
      cases ended with
      | true => rfl
      | false => exact ih after

theorem phase_behindMark (scan : Scan) : scan.behindMark.phase = scan.phase := by
  unfold behindMark
  split <;> rfl

theorem line_behindMark (scan : Scan) : scan.behindMark.line = scan.line := by
  unfold behindMark
  split <;> rfl

/-- Bytes behind a mark make up the same record, the mark before its first field apart. -/
theorem finish_behindMark (delimiter : UInt8) (scan : Scan) (bytes : List UInt8) :
    scan.behindMark.finish delimiter bytes =
      ((scan.finish delimiter bytes).1.map Record.marked,
        (scan.finish delimiter bytes).2.1.behindMark, (scan.finish delimiter bytes).2.2) := by
  rw [finish, finish, block_behindMark]
  obtain ⟨after, rest, ended⟩ := scan.block delimiter bytes
  cases ended with
  | true => simp [record_behindMark]
  | false =>
    simp only [phase_behindMark]
    split <;> simp [record_behindMark]

end Scan

/-- The data begin in an unquoted field: neither with a quote nor with a line end. -/
def BeginsPlain (data : List UInt8) : Prop :=
  ∃ first ∈ data.head?, first ≠ quote ∧ first ≠ carriageReturn ∧ first ≠ lineFeed

namespace Scan

variable {delimiter : UInt8}

/-- Where no quote and no line end comes first, a record begins like the middle of a field. -/
theorem block_of_beginsPlain {data : List UInt8} (plain : BeginsPlain data) (line : Nat) :
    (start .recordStart line).block delimiter data =
      (⟨.plain, line, [], []⟩ : Scan).block delimiter data := by
  obtain ⟨first, found, noQuote, noReturn, noFeed⟩ := plain
  obtain ⟨rest, rfl⟩ := List.head?_eq_some_iff.mp found
  have same : step delimiter .recordStart first = step delimiter .plain first := by
    simp [step, recordStep, fieldStep, noQuote, noReturn, noFeed]
  rw [block, block, take, take, start, same]

/-- A mark that is not dropped is the beginning of an unquoted field. -/
theorem block_mark (apart : delimiter ∉ Utf8.mark) (line : Nat) (bytes : List UInt8) :
    (start .recordStart line).block delimiter (Utf8.mark ++ bytes) =
      (⟨.plain, line, [], []⟩ : Scan).behindMark.block delimiter bytes := by
  simp only [Utf8.mark, List.mem_cons, List.not_mem_nil, or_false, not_or] at apart
  simp [Utf8.mark, block, take, start, step, recordStep, fieldStep, plainStep, quote,
    carriageReturn, lineFeed, Ne.symm apart.1, Ne.symm apart.2.1, Ne.symm apart.2.2, behindMark]

theorem finish_mark (apart : delimiter ∉ Utf8.mark) {data : List UInt8} (plain : BeginsPlain data)
    (line : Nat) :
    (start .recordStart line).finish delimiter (Utf8.mark ++ data) =
      (((start .recordStart line).finish delimiter data).1.map Record.marked,
        ((start .recordStart line).finish delimiter data).2.1.behindMark,
        ((start .recordStart line).finish delimiter data).2.2) := by
  have begun : (start .recordStart line).finish delimiter data =
      (⟨.plain, line, [], []⟩ : Scan).finish delimiter data := by
    rw [finish, finish, block_of_beginsPlain plain]
  rw [begun, ← finish_behindMark, finish, finish, block_mark apart]

/-- A finished field stays the first one. -/
theorem getLast?_block {scan : Scan} {first : List UInt8}
    (finished : scan.fields.getLast? = some first)
    (bytes : List UInt8) : (scan.block delimiter bytes).1.fields.getLast? = some first := by
  induction bytes generalizing scan with
  | nil => exact finished
  | cons byte rest ih =>
    have kept : (scan.take delimiter byte).1.fields.getLast? = some first := by
      rw [take]
      cases step delimiter scan.phase byte with
      | mk phase action => cases action <;> simp [finished, List.getLast?_cons]
    rw [block]
    cases taken : scan.take delimiter byte with
    | mk after ended =>
      rw [taken] at kept
      cases ended with
      | true => exact kept
      | false => exact ih kept

/-- What an unquoted first field takes of the bytes is a beginning of them. -/
theorem head?_record_block {scan : Scan} (plain : scan.phase = .plain) (none : scan.fields = [])
    (bytes : List UInt8) : ∃ front, front <+: bytes ∧
      (scan.block delimiter bytes).1.record.head? = some (scan.field.reverse ++ front) := by
  induction bytes generalizing scan with
  | nil => exact ⟨[], List.prefix_rfl, by simp [block, record, none]⟩
  | cons byte rest ih =>
    rw [block, take, plain, step, plainStep]
    by_cases delimits : byte = delimiter
    · -- The field is finished and stays the first one.
      rw [if_pos delimits]
      refine ⟨[], List.nil_prefix, ?_⟩
      have first := @getLast?_block delimiter
        ⟨.fieldStart, if byte = lineFeed then scan.line + 1 else scan.line, [],
          scan.field.reverse :: scan.fields⟩ scan.field.reverse (by simp [none]) rest
      rw [record, List.head?_reverse, List.getLast?_cons, first]
      simp
    · rw [if_neg delimits]
      by_cases ends : byte = carriageReturn ∨ byte = lineFeed
      · refine ⟨[], List.nil_prefix, ?_⟩
        rcases ends with rfl | rfl
        · simp [record, none]
        · simp [record, none, show lineFeed ≠ carriageReturn by decide]
      · rw [not_or] at ends
        rw [if_neg ends.1, if_neg ends.2]
        obtain ⟨front, begins, first⟩ := @ih ⟨.plain, scan.line, byte :: scan.field, scan.fields⟩
          rfl none
        refine ⟨byte :: front, List.cons_prefix_cons.mpr ⟨rfl, begins⟩, ?_⟩
        simpa [ends.2] using first

/-- The first field of data that begin unquoted is a beginning of the data. -/
theorem first_prefix_of_finish {data : List UInt8} (plain : BeginsPlain data) {line : Nat}
    {first : List UInt8} {others : List (List UInt8)}
    (found : ((start .recordStart line).finish delimiter data).1 = some (first :: others)) :
    first <+: data := by
  obtain ⟨front, begins, head⟩ := @head?_record_block delimiter ⟨.plain, line, [], []⟩ rfl rfl data
  rw [← block_of_beginsPlain plain line] at head
  rw [finish] at found
  generalize (start .recordStart line).block delimiter data = outcome at found head
  obtain ⟨after, rest, ended⟩ := outcome
  have record : after.record = first :: others := by
    cases ended with
    | true => exact Option.some.inj found
    | false =>
      dsimp only at found
      split at found
      · contradiction
      · exact Option.some.inj found
  simp only [record, List.head?_cons, List.reverse_nil, List.nil_append, Option.some.injEq] at head
  exact head ▸ begins

end Scan

namespace Cursor

/-- The position is before the first of some bytes. -/
structure Begins (cursor : Cursor) (delimiter : UInt8) (bytes : List UInt8) : Prop where
  delimiter : cursor.delimiter = delimiter
  afterReturn : cursor.afterReturn = false
  line : cursor.line = 1
  bytes : cursor.bytes = bytes

section Start

variable (delimiter : UInt8) (data : List UInt8)

/-- A first block of three bytes that is the mark is taken for the end of the data. -/
theorem start?_of_mark_alone : start? delimiter 3 (Utf8.mark ++ data) = none := by
  obtain ⟨later, cut, -⟩ :=
    @blocks_eq_cons 3 (by decide) (Utf8.mark ++ data) (by simp [Utf8.mark])
  have first : (Utf8.mark ++ data).take 3 = Utf8.mark := rfl
  rw [start?, cut, first]
  exact if_pos rfl

/-- A first block that cannot hold the mark leaves it in the data. -/
theorem start?_of_mark_cut {capacity : Nat} (positive : 0 < capacity) (small : capacity < 3) :
    ∃ cursor, start? delimiter capacity (Utf8.mark ++ data) = some cursor ∧
      cursor.Begins delimiter (Utf8.mark ++ data) := by
  obtain ⟨later, cut, rest⟩ := @blocks_eq_cons capacity positive (Utf8.mark ++ data)
    (by simp [Utf8.mark])
  have whole : (Utf8.mark ++ data).take capacity ++ later.flatten = Utf8.mark ++ data := by
    rw [rest, List.take_append_drop]
  have short : ((Utf8.mark ++ data).take capacity).length < Utf8.mark.length := by
    simp [Utf8.mark]
    omega
  have other : (Utf8.mark ++ data).take capacity ≠ Utf8.mark := fun same =>
    absurd (congrArg List.length same) (Nat.ne_of_lt short)
  have noMark : ¬ Utf8.mark <+: (Utf8.mark ++ data).take capacity := fun begins =>
    absurd begins.length_le (Nat.not_le_of_lt short)
  refine ⟨⟨delimiter, false, 1, _, later, ((Utf8.mark ++ data).take capacity).length⟩, ?_, rfl, rfl,
    rfl, whole⟩
  simp only [start?, cut, if_neg other, List.isPrefixOf_iff_prefix, if_neg noMark]

/-- A first block that holds more than the mark is read from behind it. -/
theorem start?_of_mark_dropped {capacity : Nat} (large : 3 < capacity)
    (unmarked : ¬ Utf8.mark <+: data) :
    Option.Rel Alike (start? delimiter capacity (Utf8.mark ++ data))
      (start? delimiter capacity data) := by
  have positive : 0 < capacity := by omega
  obtain ⟨later, cut, rest⟩ := @blocks_eq_cons capacity positive (Utf8.mark ++ data)
    (by simp [Utf8.mark])
  have front : (Utf8.mark ++ data).take capacity = Utf8.mark ++ data.take (capacity - 3) := by
    rw [List.take_append, List.take_of_length_le (show Utf8.mark.length ≤ capacity by
      simp [Utf8.mark]; omega)]
    rfl
  have back : (Utf8.mark ++ data).drop capacity = data.drop (capacity - 3) := by
    rw [List.drop_append, List.drop_of_length_le (show Utf8.mark.length ≤ capacity by
      simp [Utf8.mark]; omega)]
    rfl
  by_cases empty : data = []
  · subst empty
    have alone : Utf8.mark ++ List.take (capacity - 3) [] = Utf8.mark := by simp
    rw [start?, cut, front, alone]
    exact .none
  · obtain ⟨cursor, found, delimiter', phase, line, bytes⟩ :=
      @start?_of_unmarked delimiter _ _ positive empty unmarked
    have more : Utf8.mark ++ data.take (capacity - 3) ≠ Utf8.mark := by
      simp [empty]
      omega
    rw [found, start?, cut, front]
    simp only [if_neg more, List.isPrefixOf_iff_prefix, List.prefix_append, if_true]
    refine .some ⟨delimiter'.symm, phase.symm, line.symm, ?_⟩
    rw [bytes, Cursor.bytes, rest, back]
    exact List.take_append_drop _ _

end Start

variable {one other : Cursor} {delimiter : UInt8} {data : List UInt8}

theorem Begins.next (begins : one.Begins delimiter data) :
    ∃ after, one.next = (((Scan.start .recordStart 1).finish delimiter data).1, after) ∧
      after.delimiter = delimiter ∧
      after.afterReturn =
        (((Scan.start .recordStart 1).finish delimiter data).2.1.phase == .afterReturn) ∧
      after.line = ((Scan.start .recordStart 1).finish delimiter data).2.1.line ∧
      after.bytes = ((Scan.start .recordStart 1).finish delimiter data).2.2 := by
  have scan : one.scan = Scan.start .recordStart 1 := by
    rw [Cursor.scan, begins.afterReturn, begins.line]
    rfl
  have found := one.next_eq_finish
  rwa [scan, begins.delimiter, begins.bytes] at found

/-- Behind a mark that is not dropped the first record is the same but for the mark. -/
theorem next_of_mark (apart : delimiter ∉ Utf8.mark) (plain : BeginsPlain data)
    (marked : one.Begins delimiter (Utf8.mark ++ data)) (unmarked : other.Begins delimiter data) :
    one.next.1 = other.next.1.map Record.marked ∧ one.next.2.Alike other.next.2 := by
  obtain ⟨after, found, delimiter₁, phase₁, line₁, bytes₁⟩ := marked.next
  obtain ⟨after', found', delimiter₂, phase₂, line₂, bytes₂⟩ := unmarked.next
  rw [Scan.finish_mark apart plain] at found phase₁ line₁ bytes₁
  rw [found, found']
  refine ⟨rfl, delimiter₁.trans delimiter₂.symm, ?_, ?_, bytes₁.trans bytes₂.symm⟩
  · rw [phase₁, phase₂, Scan.phase_behindMark]
  · rw [line₁, line₂, Scan.line_behindMark]

/-- The first field of the first record is a beginning of the data, unless it is quoted. -/
theorem first_prefix_of_next (plain : BeginsPlain data) (unmarked : other.Begins delimiter data)
    {first : List UInt8} {others : List (List UInt8)}
    (found : other.next.1 = some (first :: others)) : first <+: data := by
  obtain ⟨after, next, -⟩ := unmarked.next
  rw [next] at found
  exact Scan.first_prefix_of_finish plain found

end Cursor

end Csv

namespace RowReader

theorem headerNames_marked (first : List UInt8) (others : Csv.Record) :
    headerNames (Csv.Record.marked (first :: others)) =
      (first :: others).map fun field => Utf8.decodeLossy field := by
  have marked : (Utf8.decodeLossy (Utf8.mark ++ first)).toList =
      '\ufeff' :: Utf8.decodeFrom .idle first := by
    rw [Utf8.decodeLossy, Utf8.decodeFrom_mark, String.toList_ofList]
  simp only [headerNames, Csv.Record.marked, List.map_cons, marked]
  rfl

/-- Names are the texts of the fields unless the first begins with a mark. -/
theorem headerNames_of_unmarked {first : List UInt8} (valid : Utf8.isValid first = true)
    (unmarked : ¬ Utf8.mark <+: first) (others : Csv.Record) :
    headerNames (first :: others) = (first :: others).map fun field => Utf8.decodeLossy field := by
  obtain ⟨chars, decoded⟩ := Option.isSome_iff_exists.mp valid
  have text : (Utf8.decodeLossy first).toList = chars := by
    rw [Utf8.decodeLossy, Utf8.decodeFrom_of_decodeStrict decoded, String.toList_ofList]
  simp only [headerNames, List.map_cons]
  split
  · next others' found =>
    rw [text] at found
    exact absurd (Utf8.mark_prefix_of_decodeStrict (found ▸ decoded)) unmarked
  · rfl

/-- Data behind a mark that the first block cannot hold open as they do without it, when the first
field of their header is in UTF-8 and not quoted. -/
theorem openData_of_mark_cut {data : List UInt8} {options : ReadOptions}
    (unmarked : ¬ Utf8.mark <+: data) (positive : 0 < options.bufferCapacity)
    (small : options.bufferCapacity < 3) (apart : options.delimiter ∉ Utf8.mark)
    (plain : Csv.BeginsPlain data) (source : String)
    (valid : ∀ length, openData data source options ≠ .error (.headerNotUtf8 0 length)) :
    OpensAlike (openData (Utf8.mark ++ data) source options) (openData data source options) := by
  have someData : data ≠ [] := by
    obtain ⟨first, found, -⟩ := plain
    rintro rfl
    contradiction
  obtain ⟨one, started, marked⟩ :=
    Csv.Cursor.start?_of_mark_cut options.delimiter data positive small
  obtain ⟨other, started', delimiter, phase, line, bytes⟩ :=
    @Csv.Cursor.start?_of_unmarked options.delimiter _ _ positive someData unmarked
  have begins : other.Begins options.delimiter data := ⟨delimiter, phase, line, bytes⟩
  obtain ⟨same, behind⟩ := Csv.Cursor.next_of_mark apart plain marked begins
  have prefixed : ∀ first others, other.next.1 = some (first :: others) → first <+: data :=
    fun _ _ => Csv.Cursor.first_prefix_of_next plain begins
  unfold openData at valid ⊢
  rw [started', Option.map_some] at valid
  rw [started, started', Option.map_some, Option.map_some]
  cases found : one.next with
  | mk header?' cursor' =>
    cases found' : other.next with
    | mk header? cursor =>
      rw [found, found'] at same behind
      rw [found'] at valid prefixed
      obtain rfl : header?' = header?.map Csv.Record.marked := same
      cases header? with
      | none => exact .error _
      | some header =>
        cases header with
        | nil => exact .ok (Alike.showsAlike ⟨cursor, behind, rfl⟩)
        | cons first others =>
          have fields : (Csv.Record.marked (first :: others)).findIdx?
              (fun field => !Utf8.isValid field) =
              (first :: others).findIdx? fun field => !Utf8.isValid field := by
            rw [Csv.Record.marked, List.findIdx?_cons, List.findIdx?_cons, Utf8.isValid_mark]
          simp only [Option.map_some, fields] at valid ⊢
          cases invalid : (first :: others).findIdx? fun field => !Utf8.isValid field with
          | some index =>
            cases index with
            | zero => exact absurd (by simp [invalid]) (valid (Utf8.validBytes first))
            | succ index => exact .error _
          | none =>
            have wellFormed : Utf8.isValid first = true := by
              simpa using List.findIdx?_eq_none_iff.mp invalid first List.mem_cons_self
            have bare : ¬ Utf8.mark <+: first := fun begins =>
              unmarked (begins.trans (prefixed first others rfl))
            rw [headerNames_marked, headerNames_of_unmarked wellFormed bare]
            dsimp only
            cases firstRepeated? [] ((first :: others).map fun field => Utf8.decodeLossy field) with
            | some name => exact .error _
            | none => exact .ok (Alike.showsAlike ⟨cursor, behind, rfl⟩)

/-- A byte order mark before data that do not begin with one does not show when the blocks hold more
than the mark. Blocks of three bytes make it the end of the data. With smaller ones it does not show
when no part of it is the delimiter and the first field of the header is in UTF-8 and not quoted. -/
theorem openData_of_mark {data : List UInt8} (unmarked : ¬ Utf8.mark <+: data)
    {options : ReadOptions} (positive : 0 < options.bufferCapacity) (source : String) :
    (3 < options.bufferCapacity →
        OpensAlike (openData (Utf8.mark ++ data) source options)
          (openData data source options)) ∧
      (options.bufferCapacity = 3 →
        openData (Utf8.mark ++ data) source options = .error (.missingHeader source)) ∧
      (options.bufferCapacity < 3 → options.delimiter ∉ Utf8.mark → Csv.BeginsPlain data →
        (∀ length, openData data source options ≠ .error (.headerNotUtf8 0 length)) →
        OpensAlike (openData (Utf8.mark ++ data) source options)
          (openData data source options)) := by
  refine ⟨fun large => ?_, fun exact => ?_, fun small apart plain valid =>
    openData_of_mark_cut unmarked positive small apart plain source valid⟩
  · exact @opensAlike_of_start _ _ options options.bufferCapacity
      (Csv.Cursor.start?_of_mark_dropped options.delimiter data large unmarked) source
  · rw [openData, exact, Csv.Cursor.start?_of_mark_alone]
    rfl

/-- In blocks of two bytes the mark is cut, and its end is read together with the first name. -/
theorem openData_of_cut_mark :
    ∃ marked bare,
      openData [0xef, 0xbb, 0xbf, 97, 44, 98, 10, 49, 10] "inline" ⟨44, none, .fail, [], [], 2⟩ =
          .ok marked ∧
        openData [97, 44, 98, 10, 49, 10] "inline" ⟨44, none, .fail, [], [], 2⟩ = .ok bare ∧
        marked.ShowsAlike bare := by
  have opens : (openData [97, 44, 98, 10, 49, 10] "inline" ⟨44, none, .fail, [], [], 2⟩).isOk =
      true := by decide
  have alike := (@openData_of_mark [97, 44, 98, 10, 49, 10] (by decide)
    ⟨44, none, .fail, [], [], 2⟩ (by decide) "inline").2.2 (by decide) (by decide)
    ⟨97, rfl, by decide, by decide, by decide⟩ fun length failed => by
      rw [failed] at opens
      contradiction
  change OpensAlike (openData [0xef, 0xbb, 0xbf, 97, 44, 98, 10, 49, 10] _ _) _ at alike
  generalize openData [0xef, 0xbb, 0xbf, 97, 44, 98, 10, 49, 10] _ _ = first at alike ⊢
  generalize openData [97, 44, 98, 10, 49, 10] _ _ = second at opens alike ⊢
  cases alike with
  | ok same => exact ⟨_, _, rfl, rfl, same⟩
  | error fault => contradiction

/-- In blocks of three bytes a table behind a mark has no header. -/
theorem openData_of_mark_alone :
    ¬ ∀ (data : List UInt8) (options : ReadOptions) (source : String), ¬ Utf8.mark <+: data →
      0 < options.bufferCapacity →
        OpensAlike (openData (Utf8.mark ++ data) source options)
          (openData data source options) := by
  intro alike
  have opens : (openData [97, 10, 49, 10] "inline" ⟨44, none, .skip, [], [], 3⟩).isOk = true := by
    decide
  have ends : (openData (Utf8.mark ++ [97, 10, 49, 10]) "inline"
      ⟨44, none, .skip, [], [], 3⟩).isOk = false := by decide
  have same := alike [97, 10, 49, 10] ⟨44, none, .skip, [], [], 3⟩ "inline" (by decide) (by decide)
  generalize openData (Utf8.mark ++ [97, 10, 49, 10]) _ _ = first at ends same
  generalize openData [97, 10, 49, 10] _ _ = second at opens same
  cases same <;> contradiction

end RowReader

end Medals
