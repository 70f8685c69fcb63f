import Medals.Engine.Basic

/-!
# Query results

The rows of a query with an explicit column order, and what the query counted.
-/

namespace Medals

/-- What a query counted. -/
structure QueryMetrics where
  query : String
  rowsReturned : Nat
  /-- Records pulled from the streamed table, malformed ones included. -/
  rowsScanned : Nat
  malformedRows : Nat
deriving DecidableEq, Repr, Inhabited

/-- Count the rows of an answer and what was read for it. -/
def QueryMetrics.ofReading (query : String) (rowsReturned : Nat) (stats : ReadStats) :
    QueryMetrics :=
  ⟨query, rowsReturned, stats.recordsRead, stats.malformedRows⟩

structure QueryResult where
  columns : List String
  rows : List Row
  metrics : QueryMetrics
deriving Repr

namespace QueryResult

/-- A table as an answer. -/
def ofTable (table : Table) (query : String) (stats : ReadStats) : QueryResult :=
  ⟨table.names, table.rows, .ofReading query table.size stats⟩

/-- The cell of a row under a name, if both exist. -/
def cell? (result : QueryResult) (row : Nat) (column : String) : Option Cell :=
  (result.rows[row]?).bind fun row => (row.get column).toOption

def toJson (result : QueryResult) : Json :=
  .object [("columns", .array (result.columns.map .text)),
    ("rows", .array (result.rows.map Row.toJson))]

end QueryResult

/-- What a reader at the bottom of a pipeline has read. -/
def Pipeline.readStats (pipeline : Pipeline) : ReadStats :=
  match pipeline.origin with
  | .text reader => reader.stats
  | .memory _ _ => ⟨0, 0, 0, 0⟩

/-- A selector's text, unless it is blank or says that everything is wanted. -/
def selected? (selector : Option String) : Option String :=
  (selector.map trimmed).filter fun text => text != "" && !eqIgnoringAsciiCase text "all"

namespace Engine

/-- The regions of the countries table. -/
def loadRegions (engine : Engine) (files : Files) : Query Table := do
  let countries ← engine.load files .countries
  countries.project ["NOC", "region"]

end Engine

end Medals
