import Medals.Csv.Writer
import Medals.Proofs.Table.Columns

/-!
# Records written field by field

Between records a writer has the bytes of those it has ended and the number of fields they all have,
and nothing else (`Csv.RecordWriter.between`). A further record with this number of fields is encoded
behind the others (`Csv.RecordWriter.write_between`), and a writer of rows always hands over one
field for each of its columns (`CsvWriter.writeRow_of_held`).
-/

namespace Medals

namespace Csv

/-- A joined list begins with its first element, and each other one follows a separator. -/
theorem intercalate_cons_eq_flatMap {α : Type} (separator first : List α) (rest : List (List α)) :
    separator.intercalate (first :: rest) =
      first ++ rest.flatMap fun element => separator ++ element := by
  induction rest generalizing first with
  | nil => simp
  | cons second rest ih =>
    rw [List.intercalate_cons_cons, ih, List.flatMap_cons, List.append_assoc, List.append_assoc]

namespace RecordWriter

/-- A writer that has ended records of a number of fields and begun no other. -/
def between (delimiter : UInt8) (width : Nat) (records : List Record) : RecordWriter :=
  ⟨delimiter, records.map (encodeRecord delimiter), [], 0, false, some width⟩

/-- The bytes of the record that has not been ended, its last field closed. -/
def body (writer : RecordWriter) : List UInt8 :=
  writer.begun ++ writer.closing

theorem body_putField (writer : RecordWriter) (field : List UInt8) :
    (writer.putField field).body =
      (if writer.fields = 0 then writer.begun else writer.body ++ [writer.delimiter]) ++
        encodeField writer.delimiter field := by
  have encoded : encodeField writer.delimiter field =
      (if field.any (needsQuotes writer.delimiter) then quote :: doubleQuotes field else field) ++
        if field.any (needsQuotes writer.delimiter) then [quote] else [] := by
    unfold encodeField
    split <;> simp
  rw [encoded, body, body, closing, closing, putField]
  split <;> simp [closing]

/-- Behind a first field every other one follows a delimiter. -/
theorem foldl_putField {writer : RecordWriter} (someField : writer.fields ≠ 0) (record : Record) :
    (record.foldl putField writer).body =
        writer.body ++ record.flatMap (fun field =>
          [writer.delimiter] ++ encodeField writer.delimiter field) ∧
      (record.foldl putField writer).fields = writer.fields + record.length ∧
      (record.foldl putField writer).delimiter = writer.delimiter ∧
      (record.foldl putField writer).written = writer.written ∧
      (record.foldl putField writer).width? = writer.width? := by
  induction record generalizing writer with
  | nil => simp
  | cons field rest ih =>
    have next : (writer.putField field).fields ≠ 0 := Nat.succ_ne_zero _
    obtain ⟨bytes, fields, delimiter, written, width⟩ := ih next
    rw [body_putField, if_neg someField] at bytes
    refine ⟨?_, ?_, delimiter, written, width⟩
    · rw [List.foldl_cons, bytes, List.flatMap_cons, List.append_assoc, List.append_assoc,
        List.append_assoc]
      rfl
    · rw [List.foldl_cons, fields, List.length_cons]
      simp only [putField]
      omega

/-- The fields of a record on a writer that has begun none are those of the encoded record. -/
theorem foldl_putField_of_none {writer : RecordWriter} (noField : writer.fields = 0)
    (nothing : writer.begun = []) (closed : writer.quoting = false) (record : Record) :
    (record.foldl putField writer).ended = encodeRecord writer.delimiter record ∧
      (record.foldl putField writer).fields = record.length ∧
      (record.foldl putField writer).delimiter = writer.delimiter ∧
      (record.foldl putField writer).written = writer.written ∧
      (record.foldl putField writer).width? = writer.width? := by
  cases record with
  | nil => simp [ended, closing, nothing, closed, noField, encodeRecord]
  | cons first rest =>
    have next : (writer.putField first).fields ≠ 0 := Nat.succ_ne_zero _
    obtain ⟨bytes, fields, delimiter, written, width⟩ := foldl_putField next rest
    have joined : (rest.foldl putField (writer.putField first)).body =
        [writer.delimiter].intercalate ((first :: rest).map (encodeField writer.delimiter)) := by
      rw [bytes, body_putField, if_pos noField, nothing, List.nil_append, List.map_cons,
        intercalate_cons_eq_flatMap, List.flatMap_map]
      rfl
    refine ⟨?_, ?_, delimiter, written, width⟩
    · rw [body] at joined
      rw [List.foldl_cons, ended, joined, encodeRecord]
    · rw [List.foldl_cons, fields, List.length_cons]
      simp only [putField, noField]
      omega

/-- The first record of a writer is encoded, and from then on its number of fields is asked of all
others. -/
theorem write_start (delimiter : UInt8) (record : Record) :
    (start delimiter).write record = (.ok (), between delimiter record.length [record]) := by
  obtain ⟨bytes, fields, same, written, width⟩ :=
    @foldl_putField_of_none (start delimiter) rfl rfl rfl record
  rw [write, endRecord, bytes, fields, same, written, width]
  simp [start, between]

/-- Between records, one with the number of fields asked is encoded behind the others. -/
theorem write_between {delimiter : UInt8} {width : Nat} (records : List Record) {record : Record}
    (fits : record.length = width) :
    (between delimiter width records).write record =
      (.ok (), between delimiter width (records ++ [record])) := by
  obtain ⟨bytes, fields, same, written, asked⟩ :=
    @foldl_putField_of_none (between delimiter width records) rfl rfl rfl record
  rw [write, endRecord, bytes, fields, same, written, asked]
  simp [between, fits]

/-- What is written between records are the encoded records. -/
theorem output_between (delimiter : UInt8) (width : Nat) (records : List Record) :
    (between delimiter width records).output =
      (records.map (encodeRecord delimiter)).flatten := by
  simp [between, output]

end RecordWriter

end Csv

namespace CsvWriter

/-- The fields of a row under the columns of a header. -/
def fieldsUnder (columns : List String) (row : Row) : Csv.Record :=
  columns.map fun name => Utf8.encode (row.under name).plainText

/-- A writer that has written its header and some records. -/
def behind (delimiter : UInt8) (columns : List String) (records : List Csv.Record) : CsvWriter :=
  ⟨columns, .between delimiter columns.length (columns.map Utf8.encode :: records)⟩

theorem start_eq_behind (delimiter : UInt8) (columns : List String) :
    start delimiter columns = behind delimiter columns [] := by
  rw [start, Csv.RecordWriter.write_start, List.length_map, behind]

/-- A row with all columns of the header has a field for each of them. -/
theorem record_of_held {writer : CsvWriter} {row : Row}
    (held : ∀ name ∈ writer.columns, name ∈ row.names) :
    writer.record row = .ok (fieldsUnder writer.columns row) := by
  rw [record, mapM_eq_ok_iff, fieldsUnder, List.forall₂_map_right_iff, List.forall₂_same]
  intro name member
  obtain ⟨index, found⟩ := exists_position?_iff.mpr (held name member)
  rw [Row.under_eq_cellAt found, Row.get, Row.position?, found]
  rfl

/-- A row with all columns of the header is written behind what has been written. -/
theorem writeRow_of_held {delimiter : UInt8} {columns : List String} (records : List Csv.Record)
    {row : Row} (held : ∀ name ∈ columns, name ∈ row.names) :
    (behind delimiter columns records).writeRow row =
      (.ok (), behind delimiter columns (records ++ [fieldsUnder columns row])) := by
  have fits : (fieldsUnder columns row).length = columns.length := List.length_map _
  rw [writeRow, @record_of_held (behind delimiter columns records) row held]
  simp only [behind, Csv.RecordWriter.write_between _ fits]
  rfl

theorem output_behind (delimiter : UInt8) (columns : List String) (records : List Csv.Record) :
    (behind delimiter columns records).output =
      ((columns.map Utf8.encode :: records).map (Csv.encodeRecord delimiter)).flatten :=
  Csv.RecordWriter.output_between delimiter columns.length _

end CsvWriter

end Medals
