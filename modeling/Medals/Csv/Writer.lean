import Medals.Table.Row
import Medals.Text.Utf8
import Medals.Csv.Record

/-!
# Rows as delimited text

A field is written between quotes when it holds the delimiter, a quote or a line end; quotes inside
are doubled. A record without any byte in it is written as an empty quoted field, so that it is not
taken for an empty line. Fields are written one by one as they are handed over, and a record can only
be ended when it has as many fields as the first one.
-/

namespace Medals

namespace Csv

/-- The byte forces quotes around its field. -/
def needsQuotes (delimiter byte : UInt8) : Bool :=
  byte == delimiter || byte == quote || byte == carriageReturn || byte == lineFeed

/-- A field with every quote doubled. -/
def doubleQuotes (field : List UInt8) : List UInt8 :=
  field.flatMap fun byte => if byte = quote then [quote, quote] else [byte]

def encodeField (delimiter : UInt8) (field : List UInt8) : List UInt8 :=
  if field.any (needsQuotes delimiter) then quote :: (doubleQuotes field ++ [quote]) else field

/-- A record with its line end. -/
def encodeRecord (delimiter : UInt8) (record : Record) : List UInt8 :=
  let body := [delimiter].intercalate (record.map (encodeField delimiter))
  (if body = [] then [quote, quote] else body) ++ [lineFeed]

/-- A writer of records, field by field. -/
structure RecordWriter where
  delimiter : UInt8
  /-- The records that have been ended, in the order of writing. -/
  written : List (List UInt8)
  /-- The bytes of the record that has not been ended. -/
  begun : List UInt8
  /-- How many fields that record has so far. -/
  fields : Nat
  /-- The last of them was begun with a quote, and the one that closes it is still to be written. -/
  quoting : Bool
  /-- The number of fields of the first record that was ended. -/
  width? : Option Nat
deriving DecidableEq, Repr, Inhabited

namespace RecordWriter

/-- A writer that has written nothing. -/
def start (delimiter : UInt8) : RecordWriter :=
  ⟨delimiter, [], [], 0, false, none⟩

/-- The quote that closes the last field, if it was begun with one. -/
def closing (writer : RecordWriter) : List UInt8 :=
  if writer.quoting then [quote] else []

/-- Write one more field of a record, behind a delimiter unless it is the first. -/
def putField (writer : RecordWriter) (field : List UInt8) : RecordWriter :=
  let between := if writer.fields = 0 then [] else writer.closing ++ [writer.delimiter]
  let quoting := field.any (needsQuotes writer.delimiter)
  { writer with
    begun := writer.begun ++ between ++ if quoting then quote :: doubleQuotes field else field
    fields := writer.fields + 1
    quoting }

/-- The record that has not been ended, with a line end. -/
def ended (writer : RecordWriter) : List UInt8 :=
  let body := writer.begun ++ writer.closing
  (if body = [] then [quote, quote] else body) ++ [lineFeed]

/-- End the record. One with another number of fields than the first is refused, and its fields stay
where they are. -/
def endRecord (writer : RecordWriter) : Except Fault Unit × RecordWriter :=
  let width := writer.width?.getD writer.fields
  if writer.fields = width then
    (.ok (), ⟨writer.delimiter, writer.written ++ [writer.ended], [], 0, false, some width⟩)
  else (.error (.unequalFields width writer.fields), writer)

/-- Write the fields of a record and end it. -/
def write (writer : RecordWriter) (record : Record) : Except Fault Unit × RecordWriter :=
  (record.foldl putField writer).endRecord

/-- All bytes written, those of a record that has not been ended included. -/
def output (writer : RecordWriter) : List UInt8 :=
  writer.written.flatten ++ writer.begun

end RecordWriter

end Csv

/-- A writer of rows under a header. -/
structure CsvWriter where
  columns : List String
  records : Csv.RecordWriter
deriving Repr, Inhabited

namespace CsvWriter

/-- A writer that has written the header. The first record cannot be refused. -/
def start (delimiter : UInt8) (columns : List String) : CsvWriter :=
  ⟨columns, ((Csv.RecordWriter.start delimiter).write (columns.map Utf8.encode)).2⟩

/-- The record of a row: its cells under the header's columns, in the header's order. -/
def record (writer : CsvWriter) (row : Row) : Except Fault Csv.Record :=
  writer.columns.mapM fun name => do
    let cell ← row.get name
    return Utf8.encode cell.plainText

/-- Write a row, once all its cells have been found. -/
def writeRow (writer : CsvWriter) (row : Row) : Except Fault Unit × CsvWriter :=
  match writer.record row with
  | .ok record =>
    let (outcome, records) := writer.records.write record
    (outcome, { writer with records })
  | .error fault => (.error fault, writer)

/-- Write rows up to the first that is refused. -/
def writeRows (writer : CsvWriter) : List Row → Except Fault Unit × CsvWriter
  | [] => (.ok (), writer)
  | row :: rest =>
    match writer.writeRow row with
    | (.ok (), writer) => writeRows writer rest
    | (.error fault, writer) => (.error fault, writer)

/-- All bytes written. -/
def output (writer : CsvWriter) : List UInt8 :=
  writer.records.output

end CsvWriter

end Medals
