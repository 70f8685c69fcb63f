import Medals.Csv.Record
import Medals.Cell.Parse
import Medals.Table.Schema

/-!
# Rows of delimited text

A `RowReader` binds the header of a source and yields one row per record. A record is malformed
when it has another number of fields than the header or a field that is not UTF-8; the policy says
whether it is left out, ends the reading, or is padded and cut to the width of the header. A row
limit stops the reader before it touches the next record. After the end, or after the fault that
ends the reading, nothing changes any more.
-/

namespace Medals

/-- What becomes of a malformed record. -/
inductive MalformedPolicy where
  /-- It is left out. -/
  | skip
  /-- It ends the reading with a fault. -/
  | fail
  /-- Its cells are filled up or cut, and ill-formed bytes replaced. -/
  | pad
deriving DecidableEq, Repr, Inhabited

namespace MalformedPolicy

def name : MalformedPolicy → String
  | skip => "skip"
  | fail => "fail"
  | pad => "pad"

/-- The policy of a name, blanks and case aside. -/
def parse (text : String) : Except Fault MalformedPolicy :=
  let name := asciiLowered (trimmed text)
  if name = "skip" then .ok skip
  else if name = "fail" then .ok fail
  else if name = "pad" then .ok pad
  else .error (.unknownPolicy name)

end MalformedPolicy

/-- How a source is read. -/
structure ReadOptions where
  delimiter : UInt8
  /-- The greatest number of rows to yield. -/
  limit : Option Nat
  malformed : MalformedPolicy
  /-- Texts of missing cells, up to blanks around the cell and the case of ASCII letters. An empty
  cell is always missing. -/
  nullTokens : List String
  /-- Columns of a fixed kind; the first entry of a name counts. -/
  declared : List (String × CellKind)
  /-- The size of the blocks in which the source is fetched. -/
  bufferCapacity : Nat
deriving Repr, Inhabited

namespace ReadOptions

def standard : ReadOptions where
  delimiter := 0x2c
  limit := none
  malformed := .skip
  nullTokens := ["NA", "null", "none"]
  declared := []
  bufferCapacity := 65536

/-- The declared kind of a column. -/
def declaredKind? (options : ReadOptions) (name : String) : Option CellKind :=
  (options.declared.find? (fun entry => entry.1 == name)).map Prod.snd

end ReadOptions

/-- How much of a source has been read. -/
structure ReadStats where
  /-- Records after the header. -/
  recordsRead : Nat
  rowsEmitted : Nat
  malformedRows : Nat
  /-- Bytes fetched, whole blocks at a time. -/
  bytesRead : Nat
deriving DecidableEq, Repr, Inhabited

/-- A column of a source that is being read. -/
structure SourceColumn where
  name : String
  declared? : Option CellKind
  seen : Observation
deriving DecidableEq, Repr

namespace SourceColumn

/-- The column as known so far; a declared kind wins over the observed one. -/
def column (source : SourceColumn) : Column :=
  let observed := source.seen.column source.name
  { observed with kind := source.declared?.getD observed.kind }

end SourceColumn

/-- The cell that a raw text stands for. -/
def parseCell (nullTokens : List String) (declared? : Option CellKind) (raw : String) : Cell :=
  let body := trimmed raw
  if body = "" ∨ nullTokens.any (eqIgnoringAsciiCase · body) then .missing
  else
    match declared? with
    | some kind => Cell.parseAs raw kind
    | none => Cell.infer raw

/-- A reader of rows, past the header. -/
structure RowReader where
  source : String
  cursor : Csv.Cursor
  columns : List SourceColumn
  nullTokens : List String
  malformed : MalformedPolicy
  limit : Option Nat
  recordsRead : Nat
  rowsEmitted : Nat
  malformedRows : Nat
  /-- The end was found, or a fault ended the reading. -/
  finished : Bool
deriving Repr, Inhabited

namespace RowReader

/-- The first name that occurs before. -/
def firstRepeated? (seen : List String) : List String → Option String
  | [] => none
  | name :: rest => if seen.contains name then some name else firstRepeated? (name :: seen) rest

/-- The column names in a header record; a byte order mark before the first one is dropped. -/
def headerNames (header : Csv.Record) : List String :=
  match header.map fun field => Utf8.decodeLossy field with
  | [] => []
  | first :: rest =>
    match first.toList with
    | '\ufeff' :: chars => String.ofList chars :: rest
    | _ => first :: rest

/-- Open data under a label and bind the header. -/
def openData (data : List UInt8) (source : String) (options : ReadOptions) :
    Except Fault RowReader :=
  match (Csv.Cursor.start? options.delimiter options.bufferCapacity data).map Csv.Cursor.next with
  | some (some header, cursor) =>
    match header.findIdx? (fun field => !Utf8.isValid field) with
    | some index => .error (.headerNotUtf8 index (Utf8.validBytes (header.getD index [])))
    | none =>
      let names := headerNames header
      match firstRepeated? [] names with
      | some name => .error (.duplicateColumn name source)
      | none => .ok
          { source, cursor
            columns := names.map fun name => ⟨name, options.declaredKind? name, Observation.none⟩
            nullTokens := options.nullTokens
            malformed := options.malformed
            limit := options.limit
            recordsRead := 0
            rowsEmitted := 0
            malformedRows := 0
            finished := false }
  | _ => .error (.missingHeader source)

def names (reader : RowReader) : List String :=
  reader.columns.map SourceColumn.name

/-- The schema as observed so far. -/
def schema (reader : RowReader) : Schema :=
  ⟨reader.columns.map SourceColumn.column⟩

def stats (reader : RowReader) : ReadStats :=
  ⟨reader.recordsRead, reader.rowsEmitted, reader.malformedRows, reader.cursor.fetched⟩

/-- As many rows as allowed have been yielded. -/
def limitReached (reader : RowReader) : Bool :=
  match reader.limit with
  | some limit => decide (limit ≤ reader.rowsEmitted)
  | none => false

/-- The defect of a record, found when reading began at the given line. -/
def defect? (reader : RowReader) (line : Nat) (record : Csv.Record) : Option Fault :=
  match record.findIdx? (fun field => !Utf8.isValid field) with
  | some field => some (.invalidUtf8 line field)
  | none =>
    if record.length = reader.columns.length then none
    else some (.malformedRow line reader.columns.length record.length)

/-- The row of a record: one cell per column, those without a field missing. -/
def rowOf (reader : RowReader) (record : Csv.Record) : Row :=
  ⟨reader.names,
   reader.columns.zipIdx.map fun (column, index) =>
     parseCell reader.nullTokens column.declared? (Utf8.decodeLossy (record.getD index [])),
   by simp [names]⟩

/-- Yield a row and take its cells into account. -/
def emit (reader : RowReader) (row : Row) : RowReader :=
  { reader with
    columns := reader.columns.zipWith (fun column cell =>
      { column with seen := column.seen.observe cell }) row.cells
    rowsEmitted := reader.rowsEmitted + 1 }

/-- The reader after its cursor has passed a record. -/
def advance (reader : RowReader) (cursor : Csv.Cursor) : RowReader :=
  { reader with cursor, recordsRead := reader.recordsRead + 1 }

/-- The reader after it has met a malformed record. -/
def countMalformed (reader : RowReader) : RowReader :=
  { reader with malformedRows := reader.malformedRows + 1 }

/-- Pull the next row; `none` at the end or when the limit is reached. -/
def next (reader : RowReader) : Except Fault (Option Row) × RowReader :=
  if reader.finished then (.ok none, reader)
  else if reader.limitReached then (.ok none, { reader with finished := true })
  else
    match _found : reader.cursor.next with
    | (none, cursor) => (.ok none, { reader with cursor, finished := true })
    | (some record, cursor) =>
      let after := reader.advance cursor
      match reader.defect? reader.cursor.line record with
      | none => let row := after.rowOf record; (.ok (some row), after.emit row)
      | some fault =>
        let after := after.countMalformed
        match reader.malformed with
        | .skip => next after
        | .fail => (.error fault, { after with finished := true })
        | .pad => let row := after.rowOf record; (.ok (some row), after.emit row)
termination_by reader.cursor.remaining
decreasing_by exact Csv.Cursor.next_remaining_lt _found

end RowReader

end Medals
