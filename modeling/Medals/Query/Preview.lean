import Medals.Query.Result

/-!
# Preview

The first rows of a table. The rest of the file is never read.
-/

namespace Medals

/-- A table that can be previewed. -/
inductive PreviewTable where
  | events
  | countries
deriving DecidableEq, Repr, Inhabited

namespace PreviewTable

def table : PreviewTable → Dataset
  | events => .events
  | countries => .countries

def name (preview : PreviewTable) : String :=
  preview.table.name

/-- How many rows are shown unless a number is asked for. -/
def defaultLimit : PreviewTable → Nat
  | events => 50
  | countries => 20

/-- The table of a name, blanks and case aside. -/
def parse (text : String) : Except Fault PreviewTable :=
  let name := asciiLowered (trimmed text)
  if name = "events" then .ok events
  else if name = "countries" then .ok countries
  else .error (.cannotPreview name)

end PreviewTable

namespace Engine

/-- The first `limit` rows of a table. -/
def preview (engine : Engine) (files : Files) (table : PreviewTable) (limit : Nat) :
    Except Fault QueryResult := do
  let reader ← engine.openFirst files table.table limit
  match (Pipeline.ofReader reader).collect with
  | (.error fault, _) => throw fault
  | (.ok rows, after) =>
    return ⟨reader.names, rows, .ofReading "preview" rows.length after.readStats⟩

end Engine

end Medals
