import Medals.Proofs.Cell.ReadBack
import Medals.Proofs.Csv.Encoding
import Medals.Proofs.Csv.RecordWriter
import Medals.Proofs.Csv.WellFormed

/-!
# Reading undoes writing

`RowReader.pulls_of_output` says that rows written under distinct column names are read back: the
same names, then the same rows in the same order, and no malformed record, in whatever blocks the
bytes are fetched. Names and texts may hold any characters. Cells have to be of the kinds that their
written form tells (`Cell.ReadsBack`), and a byte order mark before the first name would be dropped.
-/

namespace Medals

namespace Csv

/-- An encoded header begins with a byte order mark only if its first name does. -/
theorem unmarked_encodeRecord {delimiter : UInt8} (ascii : delimiter < 0x80) {names : List String}
    (unmarked : ∀ first ∈ names.head?, first.toList.head? ≠ some '\ufeff') (rest : List UInt8) :
    ¬ Utf8.mark <+: encodeRecord delimiter (names.map Utf8.encode) ++ rest := by
  have lead : ∀ {byte : UInt8} {others : List UInt8}, byte < 0x80 →
      ¬ Utf8.mark <+: byte :: others := by
    intro byte others small begins
    have same : (0xef : UInt8) = byte := (List.cons_prefix_cons.mp begins).1
    subst same
    revert small
    decide
  have quoteAscii : quote < 0x80 := by decide
  cases names with
  | nil => exact lead quoteAscii
  | cons first others =>
    rw [encodeRecord, List.map_map, List.map_cons]
    by_cases quotes : (Utf8.encode first).any (needsQuotes delimiter) = true
    · rw [Function.comp_apply, encodeField, if_pos quotes, List.intercalate_cons_cons_left]
      exact lead quoteAscii
    · rw [Function.comp_apply, encodeField, if_neg quotes]
      by_cases empty : Utf8.encode first = []
      · rw [empty]
        cases others with
        | nil => exact lead quoteAscii
        | cons second others => exact lead ascii
      · obtain ⟨tail, joined⟩ : ∃ tail, [delimiter].intercalate (Utf8.encode first ::
            others.map (encodeField delimiter ∘ Utf8.encode)) = Utf8.encode first ++ tail := by
          cases others with
          | nil => exact ⟨[], by simp⟩
          | cons second others => exact ⟨_, by rw [List.map_cons, List.intercalate_cons_cons,
              List.append_assoc]⟩
        rw [joined, if_neg (by simp [empty]), List.append_assoc, List.append_assoc]
        exact fun begins => unmarked first rfl (Utf8.head_of_mark_prefix empty begins)

/-- Encoded records are the records of their bytes, unless a byte order mark comes first. -/
theorem recordsOf_encoded {delimiter : UInt8} {capacity : Nat} {header : Record}
    {records : List Record} (separates : Separates delimiter) (positive : 0 < capacity)
    (someField : ∀ record ∈ header :: records, record ≠ [])
    (unmarked : ¬ Utf8.mark <+: ((header :: records).map (encodeRecord delimiter)).flatten) :
    (recordsOf delimiter capacity
      ((header :: records).map (encodeRecord delimiter)).flatten).map Prod.snd =
        header :: records := by
  have someData : ((header :: records).map (encodeRecord delimiter)).flatten ≠ [] := by
    simp [encodeRecord]
  obtain ⟨cursor, started, same, between, _, bytes⟩ :=
    @Cursor.start?_of_unmarked delimiter capacity _ positive someData unmarked
  rw [recordsOf, started]
  exact Cursor.records_of_encoded (same ▸ separates) between someField (same ▸ bytes)

end Csv

namespace CsvWriter

/-- The fields of a row. -/
def fieldsOf (row : Row) : Csv.Record :=
  row.cells.map fun cell => Utf8.encode cell.plainText

/-- Under distinct names the fields of a row are those of its cells. -/
theorem fieldsUnder_eq {columns : List String} {row : Row} (headed : row.names = columns)
    (distinct : columns.Nodup) : fieldsUnder columns row = fieldsOf row := by
  subst headed
  rw [fieldsUnder, fieldsOf, ← Row.map_under_names distinct, List.map_map]
  rfl

/-- Rows under the names of the header are all written, one behind the other. -/
theorem writeRows_eq {delimiter : UInt8} {columns : List String} (records : List Csv.Record)
    {rows : List Row} (headed : ∀ row ∈ rows, row.names = columns) (distinct : columns.Nodup) :
    (behind delimiter columns records).writeRows rows =
      (.ok (), behind delimiter columns (records ++ rows.map fieldsOf)) := by
  induction rows generalizing records with
  | nil => simp [writeRows]
  | cons row rest ih =>
    have names := headed row List.mem_cons_self
    rw [writeRows, writeRow_of_held records fun name member => names ▸ member,
      fieldsUnder_eq names distinct]
    simpa using ih (records ++ [fieldsOf row]) fun other later =>
      headed other (List.mem_cons_of_mem row later)

/-- The encoded header followed by the encoded rows. -/
def encoded (delimiter : UInt8) (columns : List String) (rows : List Row) : List UInt8 :=
  ((columns.map Utf8.encode :: rows.map fieldsOf).map (Csv.encodeRecord delimiter)).flatten

/-- Rows under the columns can be written, and the output is the encoded header followed by the
encoded rows. -/
theorem exists_writeRows (delimiter : UInt8) {columns : List String} {rows : List Row}
    (headed : ∀ row ∈ rows, row.names = columns) (distinct : columns.Nodup) :
    ∃ writer, (start delimiter columns).writeRows rows = (.ok (), writer) ∧
      writer.output = encoded delimiter columns rows := by
  refine ⟨_, start_eq_behind delimiter columns ▸ writeRows_eq [] headed distinct, ?_⟩
  rw [List.nil_append, output_behind, encoded]

end CsvWriter

namespace RowReader

/-- The names of a written header are read back. -/
theorem headerNames_encode {names : List String}
    (unmarked : ∀ first ∈ names.head?, first.toList.head? ≠ some '\ufeff') :
    headerNames (names.map Utf8.encode) = names := by
  have decoded : ((names.map Utf8.encode).map fun field => Utf8.decodeLossy field) = names := by
    rw [List.map_map]
    refine (List.map_congr_left fun name _ => ?_).trans (List.map_id names)
    exact Utf8.decodeLossy_of_decode? (Utf8.decode?_encode name)
  rw [headerNames, decoded]
  cases names with
  | nil => rfl
  | cons first rest =>
    simp only
    split
    · next chars begins => exact absurd (by rw [begins, List.head?_cons]) (unmarked first rfl)
    · rfl

/-- A written row is read back under its names. -/
theorem rowOf_fieldsOf {options : ReadOptions} {row : Row}
    (readsBack : ∀ entry ∈ row.entries,
      entry.2.ReadsBack options.nullTokens (options.declaredKind? entry.1)) :
    options.rowOf row.names (CsvWriter.fieldsOf row) = row := by
  refine Row.ext_cells rfl (List.ext_getElem (by simp [ReadOptions.rowOf, row.width])
    fun index here there => ?_)
  have inside : index < row.names.length := by simpa [ReadOptions.rowOf] using here
  have entry : (row.names[index], row.cells[index]) ∈ row.entries :=
    List.mem_iff_getElem.mpr ⟨index, by simpa [Row.entries] using ⟨inside, there⟩,
      by simp [Row.entries]⟩
  have text : Csv.fieldText (Utf8.encode row.cells[index].plainText) =
      row.cells[index].plainText := by
    rw [Csv.fieldText, Utf8.decode?_encode, Option.getD_some]
  have parsed := Cell.parseCell_plainText (readsBack _ entry)
  simp [ReadOptions.rowOf, ReadOptions.cellOf, CsvWriter.fieldsOf, there, text, parsed]

theorem wellFormed_fieldsOf (row : Row) :
    ¬ Csv.Malformed row.names.length (CsvWriter.fieldsOf row) := by
  rintro (narrow | ⟨field, member, invalid⟩)
  · exact narrow (by simp [CsvWriter.fieldsOf, row.width])
  · obtain ⟨cell, _, rfl⟩ := List.mem_map.mp member
    rw [Utf8.isValid_of_decode? (Utf8.decode?_encode _)] at invalid
    contradiction

/-- Records with the fields of written rows are well-formed. -/
theorem wellFormed_of_fields {columns : List String} {rows : List Row}
    {records : List Csv.LinedRecord} (headed : ∀ row ∈ rows, row.names = columns)
    (fields : records.map Prod.snd = rows.map CsvWriter.fieldsOf) :
    ∀ entry ∈ records, ¬ Csv.Malformed columns.length entry.2 := by
  intro entry member
  have listed : entry.2 ∈ rows.map CsvWriter.fieldsOf := fields ▸ List.mem_map_of_mem member
  obtain ⟨row, inside, same⟩ := List.mem_map.mp listed
  rw [← same, ← headed row inside]
  exact wellFormed_fieldsOf row

/-- The row that a row is read as after it was written. -/
def reread (options : ReadOptions) (columns : List String) (row : Row) : Row :=
  options.rowOf columns (CsvWriter.fieldsOf row)

section Written

variable {columns : List String} {rows : List Row} {options : ReadOptions}

/-- The rows can be written under the columns, and the columns are read back. -/
def Writable (columns : List String) (rows : List Row) : Prop :=
  columns ≠ [] ∧ columns.Nodup ∧
    (∀ first ∈ columns.head?, first.toList.head? ≠ some '\ufeff') ∧
    ∀ row ∈ rows, row.names = columns

instance : Decidable (Writable columns rows) :=
  inferInstanceAs (Decidable (_ ∧ _ ∧ _ ∧ _))

/-- The rows are told by what is written of them under the columns. -/
def Told (options : ReadOptions) (columns : List String) (rows : List Row) : Prop :=
  Writable columns rows ∧
    ∀ row ∈ rows, ∀ entry ∈ row.entries,
      entry.2.ReadsBack options.nullTokens (options.declaredKind? entry.1)

instance : Decidable (Told options columns rows) :=
  inferInstanceAs (Decidable (_ ∧ _))

/-- Rows that are told are read as they were written. -/
theorem Told.map_reread (told : Told options columns rows) :
    rows.map (reread options columns) = rows := by
  obtain ⟨⟨-, -, -, headed⟩, readsBack⟩ := told
  refine (List.map_congr_left fun row member => ?_).trans (List.map_id rows)
  rw [reread, ← headed row member]
  exact rowOf_fieldsOf (readsBack row member)

/-- What is written is read as records of the fields of the names and of the rows. -/
theorem recordsOf_written {capacity : Nat} (ascii : options.delimiter < 0x80)
    (separates : Csv.Separates options.delimiter) (writable : Writable columns rows)
    (positive : 0 < capacity) :
    ∃ header records, Csv.recordsOf options.delimiter capacity
        (CsvWriter.encoded options.delimiter columns rows) = header :: records ∧
      header.2 = columns.map Utf8.encode ∧ records.map Prod.snd = rows.map CsvWriter.fieldsOf := by
  obtain ⟨someColumn, -, unmarked, headed⟩ := writable
  have fields : ∀ record ∈ columns.map Utf8.encode :: rows.map CsvWriter.fieldsOf,
      record ≠ [] := by
    rw [List.forall_mem_cons]
    refine ⟨by simpa using someColumn, fun record member => ?_⟩
    obtain ⟨row, listed, rfl⟩ := List.mem_map.mp member
    have width : row.cells.length = columns.length := by rw [row.width, headed row listed]
    have wide : 0 < columns.length := List.length_pos_iff.mpr someColumn
    exact List.length_pos_iff.mp (by simp only [CsvWriter.fieldsOf, List.length_map]; omega)
  exact List.map_eq_cons_iff.mp (Csv.recordsOf_encoded separates positive fields
    (Csv.unmarked_encodeRecord ascii unmarked _))

/-- The encoded rows are read cell by cell as their fields are parsed, whatever the policy and the
size of the blocks. -/
theorem pulls_of_written (source : String) (ascii : options.delimiter < 0x80)
    (separates : Csv.Separates options.delimiter) (writable : Writable columns rows)
    (unlimited : options.limit = none) (capacity : 1 ≤ options.bufferCapacity) :
    ∃ reader, openData (CsvWriter.encoded options.delimiter columns rows) source options =
        .ok reader ∧ reader.names = columns ∧
      ∀ pulls, (reader.pulled pulls).next.1 = .ok (rows.map (reread options columns))[pulls]? ∧
        (reader.pulled pulls).stats.malformedRows = 0 := by
  obtain ⟨header, records, read, begins, others⟩ :=
    recordsOf_written ascii separates writable capacity
  obtain ⟨-, distinct, unmarked, headed⟩ := writable
  have names : headerNames header.2 = columns := by rw [begins, headerNames_encode unmarked]
  have valid : ∀ field ∈ header.2, Utf8.isValid field = true := by
    rw [begins]
    intro field member
    obtain ⟨name, _, rfl⟩ := List.mem_map.mp member
    exact Utf8.isValid_of_decode? (Utf8.decode?_encode name)
  obtain ⟨reader, opened, bound, pulls⟩ := pulls_of_records source read valid names distinct
    unlimited (wellFormed_of_fields headed others)
  have parsed : (records.map fun entry => options.rowOf columns entry.2) =
      rows.map (reread options columns) := by
    rw [← Function.comp_def (options.rowOf columns) Prod.snd, ← List.map_map, others, List.map_map]
    rfl
  rw [parsed] at pulls
  exact ⟨reader, opened, bound, pulls⟩

/-- Rows written under distinct names are read back: the names, the rows in order, and no malformed
record. The names have to be given without a byte order mark in front. -/
theorem pulls_of_output {columns : List String} {rows : List Row} {options : ReadOptions}
    (source : String) (ascii : options.delimiter < 0x80)
    (separates : Csv.Separates options.delimiter) (someColumn : columns ≠ [])
    (distinct : columns.Nodup)
    (unmarked : ∀ first ∈ columns.head?, first.toList.head? ≠ some '\ufeff')
    (headed : ∀ row ∈ rows, row.names = columns)
    (readsBack : ∀ row ∈ rows, ∀ entry ∈ row.entries,
      entry.2.ReadsBack options.nullTokens (options.declaredKind? entry.1))
    (unlimited : options.limit = none) (capacity : 1 ≤ options.bufferCapacity) :
    ∃ writer reader,
      (CsvWriter.start options.delimiter columns).writeRows rows = (.ok (), writer) ∧
      openData writer.output source options = .ok reader ∧
      reader.names = columns ∧
      ∀ pulls, (reader.pulled pulls).next.1 = .ok rows[pulls]? ∧
        (reader.pulled pulls).stats.malformedRows = 0 := by
  obtain ⟨writer, written, output⟩ :=
    CsvWriter.exists_writeRows options.delimiter headed distinct
  have writable : Writable columns rows := ⟨someColumn, distinct, unmarked, headed⟩
  obtain ⟨reader, opened, names, pulls⟩ := pulls_of_written source ascii separates writable
    unlimited capacity
  rw [Told.map_reread ⟨writable, readsBack⟩] at pulls
  exact ⟨writer, reader, written, output ▸ opened, names, pulls⟩

/-- In a table of one column, a missing cell and a text that ends in a carriage return are read
back. -/
theorem pulls_of_one_column :
    ∃ writer reader,
      (CsvWriter.start 44 ["a"]).writeRows [⟨["a"], [.missing], rfl⟩,
        ⟨["a"], [.text " x\",\r"], rfl⟩, ⟨["a"], [.integer (-5)], rfl⟩] = (.ok (), writer) ∧
      openData writer.output "inline" ⟨44, none, .fail, ["NA"], [], 2⟩ = .ok reader ∧
      reader.names = ["a"] ∧
      (reader.pulled 0).next.1 = .ok (some ⟨["a"], [.missing], rfl⟩) ∧
      (reader.pulled 1).next.1 = .ok (some ⟨["a"], [.text " x\",\r"], rfl⟩) ∧
      (reader.pulled 2).next.1 = .ok (some ⟨["a"], [.integer (-5)], rfl⟩) ∧
      (reader.pulled 3).next.1 = .ok none ∧
      (reader.pulled 3).stats.malformedRows = 0 := by
  obtain ⟨writer, reader, written, opened, names, pulls⟩ :=
    @pulls_of_output ["a"] [⟨["a"], [.missing], rfl⟩, ⟨["a"], [.text " x\",\r"], rfl⟩,
      ⟨["a"], [.integer (-5)], rfl⟩] ⟨44, none, .fail, ["NA"], [], 2⟩ "inline" (by decide)
      ⟨by decide, by decide, by decide⟩ (by decide) (by decide) (by decide) (by decide)
      (by decide) rfl (by decide)
  exact ⟨writer, reader, written, opened, names, (pulls 0).1, (pulls 1).1, (pulls 2).1,
    (pulls 3).1, (pulls 3).2⟩

end Written

end RowReader

end Medals
