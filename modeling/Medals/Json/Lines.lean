import Medals.Json.Tree

/-!
# Rows as JSON lines

One object per row and line, members in column order.
-/

namespace Medals

/-- A writer of JSON lines. -/
structure JsonLines where
  /-- The lines written so far, in order, each with its line end. -/
  lines : List String
deriving Repr, Inhabited

namespace JsonLines

def start : JsonLines := ⟨[]⟩

/-- The line of a row. -/
def line (row : Row) : String :=
  row.toJson.compact ++ "\n"

def writeRow (writer : JsonLines) (row : Row) : JsonLines :=
  ⟨writer.lines ++ [line row]⟩

def writeRows (writer : JsonLines) (rows : List Row) : JsonLines :=
  rows.foldl writeRow writer

def rowsWritten (writer : JsonLines) : Nat :=
  writer.lines.length

def output (writer : JsonLines) : String :=
  String.join writer.lines

end JsonLines

end Medals
