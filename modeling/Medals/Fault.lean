import Medals.Dataset
import Medals.Text.Quoted

/-!
# Faults

Everything that can go wrong, as a cause, and the one place that words it.
-/

namespace Medals

/-- The operand of a join. -/
inductive JoinSide where
  | left
  | right
deriving DecidableEq, Repr

/-- Why a file cannot be read or created. -/
inductive FileFault where
  | notFound
  | notDirectory
  | isDirectory
  | nameTooLong
  | holdsNul
  | notText
deriving DecidableEq, Repr

namespace FileFault

def message : FileFault → String
  | notFound => "No such file or directory (os error 2)"
  | notDirectory => "Not a directory (os error 20)"
  | isDirectory => "Is a directory (os error 21)"
  | nameTooLong => "File name too long (os error 36)"
  | holdsNul => "file name contained an unexpected NUL byte"
  | notText => "stream did not contain valid UTF-8"

end FileFault

/-- The cause of a failed operation. -/
inductive Fault where
  /-- A record has another number of fields than the header. -/
  | malformedRow (line expected found : Nat)
  /-- A field of a record, counted from zero, is not UTF-8. -/
  | invalidUtf8 (line field : Nat)
  | unknownColumn (name : String)
  | columnExists (name : String)
  | joinKeyMissing (column : String) (side : JoinSide)
  | unknownPolicy (text : String)
  | delimiterNotAscii (delimiter : Char)
  | readBufferZero
  | pageCapZero
  /-- A settings document cannot be read. -/
  | settingsUnreadable
  | duplicateColumn (name source : String)
  | layoutMismatch (row table : List String)
  | rowWidth (values columns : Nat)
  | aggregationWithoutColumn (label : String)
  | cannotOpen (path : String) (cause : FileFault)
  | missingHeader (source : String)
  /-- A field of the header is not UTF-8 from some byte on. -/
  | headerNotUtf8 (field validBytes : Nat)
  /-- A record that is written has another number of fields than the first one. -/
  | unequalFields (first found : Nat)
  | unreadable (cause : FileFault)
  /-- A row does not have the layout of the source that holds it. -/
  | foreignLayout (row source : List String)
  | tableUnavailable (table : Dataset) (cause : Fault)
  | noCodesFile
  | cannotPreview (text : String)
  | unknownOrder (text : String)
  | unknownMetric (text : String)
  | pageSizeOutOfRange (cap size : Nat)
deriving DecidableEq, Repr

namespace Fault

def sideName : JoinSide → String
  | .left => "left"
  | .right => "right"

/-- The wording of a fault. -/
def message : Fault → String
  | malformedRow line expected found =>
    "malformed row at line " ++ line.repr ++ ": expected " ++ expected.repr ++
      " fields, found " ++ found.repr
  | invalidUtf8 line field => "invalid UTF-8 at line " ++ line.repr ++ ", field " ++ field.repr
  | unknownColumn name => "unknown column '" ++ name ++ "'"
  | columnExists name => "column '" ++ name ++ "' already exists"
  | joinKeyMissing column side =>
    "join key '" ++ column ++ "' missing from " ++ sideName side ++ " operand"
  | unknownPolicy text => "invalid configuration: unknown malformed-row policy '" ++ text ++ "'"
  | delimiterNotAscii delimiter =>
    "invalid configuration: delimiter '" ++ delimiter.toString ++
      "' is not a single ASCII character"
  | readBufferZero => "invalid configuration: read_buffer_bytes must be > 0"
  | pageCapZero => "invalid configuration: max_page_size must be > 0"
  | settingsUnreadable => "invalid configuration: the settings document cannot be read"
  | duplicateColumn name source =>
    "schema error: duplicate column '" ++ name ++ "' in '" ++ source ++ "'"
  | layoutMismatch row table =>
    "schema error: row columns " ++ quotedList row ++ " do not match frame columns " ++
      quotedList table
  | rowWidth values columns =>
    "internal invariant failed: row has " ++ values.repr ++ " values for " ++ columns.repr ++
      " columns"
  | aggregationWithoutColumn label =>
    "internal invariant failed: aggregation '" ++ label ++ "' needs a column"
  | cannotOpen path cause => "cannot open '" ++ path ++ "': " ++ cause.message
  | missingHeader source => "'" ++ source ++ "' has no header row"
  | headerNotUtf8 field validBytes =>
    "CSV parse error: record 0 (line 1, field: " ++ field.repr ++
      ", byte: 0): invalid utf-8: invalid UTF-8 in field " ++ field.repr ++
      " near byte index " ++ validBytes.repr
  | unequalFields first found =>
    "CSV error: found record with " ++ found.repr ++ " fields, but the previous record has " ++
      first.repr ++ " fields"
  | unreadable cause => cause.message
  | foreignLayout row source =>
    "execution error: row layout " ++ quotedList row ++ " does not match source columns " ++
      quotedList source
  | tableUnavailable table cause => table.name ++ " table unavailable: " ++ cause.message
  | noCodesFile => "invalid query: no noc_codes_file configured"
  | cannotPreview text => "invalid query: cannot preview table '" ++ text ++ "'"
  | unknownOrder text => "invalid query: unknown search order '" ++ text ++ "'"
  | unknownMetric text => "invalid query: unknown efficiency metric '" ++ text ++ "'"
  | pageSizeOutOfRange cap size =>
    "invalid query: page_size must be between 1 and " ++ cap.repr ++ ", got " ++ size.repr

end Fault

end Medals
