import Medals.Query.Result

/-!
# Leaderboard

Medals per NOC, highest first, over all years or in one of them. Over all years every NOC of the
events is listed, also those without medals; in one year only those that won one.
-/

namespace Medals

structure LeaderboardParams where
  /-- Only this year's Games; the answer then has a column for it. -/
  year : Option Int64
  topN : Nat
deriving DecidableEq, Repr, Inhabited

namespace LeaderboardParams

/-- Which events are counted. -/
def filter (params : LeaderboardParams) : Filter :=
  match params.year with
  | some year => ⟨[.present "Medal", .equals "Year" (.integer year)]⟩
  | none => .all

/-- What the events are grouped by. -/
def keys (params : LeaderboardParams) : List String :=
  if params.year.isSome then ["NOC", "Year"] else ["NOC"]

/-- How many medals each group won. -/
def grouping (params : LeaderboardParams) : Grouping :=
  ⟨params.keys, [(Aggregation.countPresent "Medal").named "medal_count"]⟩

/-- The columns of the answer. -/
def columns (params : LeaderboardParams) : List String :=
  if params.year.isSome then ["NOC", "region", "Year", "medal_count"]
  else ["NOC", "region", "medal_count"]

end LeaderboardParams

namespace Engine

/-- The NOCs with the most medals. -/
def leaderboard (engine : Engine) (files : Files) (params : LeaderboardParams) :
    Query QueryResult := do
  let events := Pipeline.ofReader (← engine.openTable files .events)
  let counted ← events.addStage params.filter none
  let (counts, after) := counted.groupBy params.grouping
  let counts ← counts
  let regions ← engine.loadRegions files
  let joined ← counts.join regions ["NOC"] .left
  let sorted ← joined.sortBy "medal_count" true
  let answer ← (sorted.head params.topN).project params.columns
  return .ofTable answer "leaderboard" after.readStats

end Engine

end Medals
