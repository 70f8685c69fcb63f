import Medals.Query.Result

/-!
# Join demonstration

A sample of the events with the regions of their NOCs.
-/

namespace Medals

/-- The columns of the answer. -/
def joinDemoColumns : List String :=
  ["Name", "Year", "Season", "Sport", "Event", "Medal", "NOC", "region"]

namespace Engine

/-- The first events of the sample, joined with their regions. -/
def joinDemo (engine : Engine) (files : Files) (limit : Nat) : Query QueryResult := do
  let reader ← engine.openFirst files .events engine.settings.joinDemoSampleRows
  let (sample, after) := (Pipeline.ofReader reader).toTable
  let sample ← sample
  let regions ← engine.loadRegions files
  let joined ← sample.join regions ["NOC"] .left
  let answer ← joined.project joinDemoColumns
  return .ofTable (answer.head limit) "join_demo" after.readStats

end Engine

end Medals
