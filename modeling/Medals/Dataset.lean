import Medals.Cell.Basic

/-!
# The tables of the medal data

Four tables are known by name. Their well-known columns have declared kinds, so that a team called
`1904` stays a text and a population is never an integer.
-/

namespace Medals

/-- A table of the medal data. -/
inductive Dataset where
  | events
  | countries
  | stats
  | nocCodes
deriving DecidableEq, Repr, Inhabited

namespace Dataset

def name : Dataset → String
  | events => "events"
  | countries => "countries"
  | stats => "stats"
  | nocCodes => "noc_codes"

/-- The columns with a declared kind; other columns have theirs inferred cell by cell. -/
def declared : Dataset → List (String × CellKind)
  | events =>
    [("Name", .text), ("Team", .text), ("NOC", .text), ("Games", .text), ("Year", .integer),
     ("Season", .text), ("City", .text), ("Sport", .text), ("Event", .text), ("Medal", .text)]
  | countries => [("NOC", .text), ("region", .text), ("notes", .text)]
  | stats =>
    [("NOC", .text), ("Country Code", .text), ("Country Name", .text), ("Year", .integer),
     ("Population", .number), ("GDP_USD", .number)]
  | nocCodes => [("NOC", .text), ("Country Code", .text)]

end Dataset

end Medals
