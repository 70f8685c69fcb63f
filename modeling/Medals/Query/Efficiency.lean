import Medals.Query.Result

/-!
# Efficiency

Medals per million people and per billion of GDP for the Games of one year. Medals are counted per
NOC and joined with regions and with the statistics of the year, directly or through the table of
country codes.
-/

namespace Medals

/-- The column that ranks the answer. -/
inductive EfficiencyMetric where
  | medalCount
  | medalsPerMillion
  | medalsPerBillionGdp
deriving DecidableEq, Repr, Inhabited

namespace EfficiencyMetric

def column : EfficiencyMetric → String
  | medalCount => "medal_count"
  | medalsPerMillion => "medals_per_million"
  | medalsPerBillionGdp => "medals_per_billion_gdp"

/-- The metric of a column or of a spoken name, blanks and case aside. -/
def parse (text : String) : Except Fault EfficiencyMetric :=
  let name := asciiLowered (trimmed text)
  if name = "medal_count" ∨ name = "total medals" then .ok medalCount
  else if name = "medals_per_million" ∨ name = "medals per million people" then
    .ok medalsPerMillion
  else if name = "medals_per_billion_gdp" ∨ name = "medals per billion gdp" then
    .ok medalsPerBillionGdp
  else .error (.unknownMetric name)

end EfficiencyMetric

structure EfficiencyParams where
  year : Int64
  season : Option String
  /-- The kind of medal, or any. -/
  medal : Option String
  sortBy : EfficiencyMetric
  topN : Nat
deriving DecidableEq, Repr, Inhabited

namespace EfficiencyParams

/-- The condition that a selector puts on a column. -/
def selectorCondition (column : String) (selector : Option String) : List Condition :=
  match selected? selector with
  | some text => [.equals column (.text text)]
  | none => []

/-- Which events are counted. -/
def filter (params : EfficiencyParams) : Filter :=
  ⟨[.present "Medal", .equals "Year" (.integer params.year)] ++
    selectorCondition "Season" params.season ++ selectorCondition "Medal" params.medal⟩

/-- The columns of the answer. -/
def columns : List String :=
  ["NOC", "region", "Country Name", "Year", "medal_count", "Population", "GDP_USD",
    "medals_per_million", "medals_per_billion_gdp"]

end EfficiencyParams

/-- Medals per `scale` units of a column. Missing when the column is, or is not above zero, or when
the quotient is not finite. -/
def perUnit (column : String) (scale : Double) (row : Row) : Cell :=
  let number (name : String) : Option Double := ((row.get name).toOption).bind Cell.toDouble?
  match number "medal_count", number column with
  | some count, some units =>
    if units.isPositive then
      let ratio := count / (units / scale)
      if ratio.isFinite then .number ratio else .missing
    else .missing
  | _, _ => .missing

namespace Engine

/-- Join counts with the statistics of their NOC and year, through the table of country codes if one
is set. -/
def attachStats (engine : Engine) (files : Files) (counts : Table) : Query Table := do
  let stats ← engine.load files .stats
  if engine.settings.nocCodesFile.isNone then
    counts.join stats ["NOC", "Year"] .left
  else
    let codes ← engine.load files .nocCodes
    let codes ← codes.project ["NOC", "Country Code"]
    let coded ← counts.join codes ["NOC"] .left
    coded.join stats ["Country Code", "Year"] .left

/-- The table with a country name, missing where the statistics have none. -/
def withCountryName (table : Table) : Except Fault Table :=
  if table.schema.contains "Country Name" then .ok table
  else table.addColumn "Country Name" fun _ => .missing

/-- The NOCs that won the most medals of a year for their size. -/
def efficiency (engine : Engine) (files : Files) (params : EfficiencyParams) :
    Query QueryResult := do
  let events := Pipeline.ofReader (← engine.openTable files .events)
  let counted ← events.addStage params.filter none
  let (counts, after) := counted.groupBy (.counting ["NOC", "Year"] "medal_count")
  let counts ← counts
  let regions ← engine.loadRegions files
  let located ← counts.join regions ["NOC"] .left
  let measured ← engine.attachStats files located
  let named ← withCountryName measured
  let perMillion ← named.addColumn "medals_per_million"
    (perUnit "Population" (Double.ofInt 1000000))
  let scored ← perMillion.addColumn "medals_per_billion_gdp"
    (perUnit "GDP_USD" (Double.ofInt 1000000000))
  let sorted ← scored.sortBy params.sortBy.column true
  let answer ← (sorted.head params.topN).project EfficiencyParams.columns
  return .ofTable answer "efficiency" after.readStats

end Engine

end Medals
