import Medals.Command.Arguments
import Medals.Query.Efficiency
import Medals.Query.JoinDemo
import Medals.Query.Leaderboard
import Medals.Query.Preview
import Medals.Query.Search

/-!
# Commands

The commands of the program, as described to its user and as read from a command line.
-/

namespace Medals

/-- How rows are printed. -/
inductive OutputFormat where
  /-- The whole answer as one document. -/
  | json
  /-- One document per row. -/
  | jsonLines
  /-- Delimited text under a header. -/
  | csv
deriving DecidableEq, Repr, Inhabited

namespace OutputFormat

def name : OutputFormat → String
  | json => "json"
  | jsonLines => "jsonl"
  | csv => "csv"

/-- The format of a name. -/
def ofName? (name : String) : Option OutputFormat :=
  [json, jsonLines, csv].find? fun format => format.name == name

end OutputFormat

/-- A command. Names of tables, orders and metrics are texts here; whether there is such a one is
found when the command runs. -/
inductive Command where
  | preview (table : String) (limit : Option Nat)
  /-- The order of the parameters is the one that is named apart. -/
  | search (params : SearchParams) (order : String)
  | sports
  | leaderboard (params : LeaderboardParams)
  /-- The metric of the parameters is the one that is named apart. -/
  | efficiency (params : EfficiencyParams) (metric : String)
  | joinDemo (limit : Nat)
  | config
deriving Repr, Inhabited

/-- A command with the settings that were chosen for it. -/
structure Invocation where
  settingsFile : Option String
  dataDir : Option String
  malformed : Option String
  cache : Bool
  format : OutputFormat
  command : Command
deriving Repr, Inhabited

namespace Usage

/-- An option without default that may be left out. -/
def option (name : String) (kind : OptionKind) (help : String) : OptionUsage :=
  ⟨name, kind, help, none, false⟩

/-- An option with a default. -/
def withDefault (name : String) (kind : OptionKind) (help default : String) : OptionUsage :=
  ⟨name, kind, help, some default, false⟩

/-- An option that has to be there. -/
def required (name : String) (kind : OptionKind) (help : String) : OptionUsage :=
  ⟨name, kind, help, none, true⟩

def shared : List OptionUsage :=
  [option "config" .path "YAML config file (applied over PODIUM_* environment variables)",
    option "data-dir" .path "Directory holding the CSV files (overrides config)",
    option "malformed" .text "Malformed-row policy: skip, fail or pad (overrides config)",
    option "cache" .switch "Keep small tables cached between queries",
    withDefault "format" (.choice ["json", "jsonl", "csv"]) "Output format" "json"]

def preview : CommandUsage :=
  ⟨"preview", "Show the first rows of a table (events or countries)", some "table",
    [option "limit" .count "Number of rows (defaults to 50 for events, 20 for countries)"]⟩

def search : CommandUsage :=
  ⟨"search", "Search athlete results with filters and pagination", none,
    [option "name" .text "Case-insensitive substring of the athlete name",
      option "season" .text "",
      option "year-min" .integer "",
      option "year-max" .integer "",
      option "noc" .text "",
      option "sport" .text "",
      option "medal-only" .switch "Only rows that won a medal",
      withDefault "page" .count "" "1",
      withDefault "page-size" .count "" "50",
      withDefault "order" .text "Pagination order: file or year" "file",
      option "columns" .texts "Comma-separated columns to return"]⟩

def sports : CommandUsage :=
  ⟨"sports", "List distinct sports", none, []⟩

def leaderboard : CommandUsage :=
  ⟨"leaderboard", "Medal counts per country, optionally for one year", none,
    [option "year" .integer "", withDefault "top-n" .count "" "20"]⟩

def efficiency : CommandUsage :=
  ⟨"efficiency", "Medals per million people / per billion GDP for one year", none,
    [required "year" .integer "",
      option "season" .text "",
      option "medal" .text "Gold, Silver or Bronze",
      withDefault "sort-by" .text "medal_count, medals_per_million or medals_per_billion_gdp"
        "medals_per_million",
      withDefault "top-n" .count "" "20"]⟩

def joinDemo : CommandUsage :=
  ⟨"join-demo", "Events sample joined with country regions", none,
    [withDefault "limit" .count "" "100"]⟩

def config : CommandUsage :=
  ⟨"config", "Print the effective configuration as YAML", none, []⟩

/-- The program. -/
def program : ProgramUsage :=
  ⟨"podium", "0.1.0", "Olympic medal queries over streaming CSV files", shared,
    [preview, search, sports, leaderboard, efficiency, joinDemo, config]⟩

end Usage

namespace Call

/-- A count that was given, or another. -/
def countOr (call : Call) (name : String) (default : Nat) : Nat :=
  ((call.own.value? name).bind readCount?).getD default

def integer? (call : Call) (name : String) : Option Int64 :=
  (call.own.value? name).bind readInt64?

/-- The texts between the commas of all values of an option, if it was given. -/
def texts? (call : Call) (name : String) : Option (List String) :=
  if call.own.names name then
    some ((call.own.valuesOf name).flatMap fun value =>
      (value.toList.splitOn ',').map String.ofList)
  else none

def searchParams (call : Call) : SearchParams :=
  { SearchParams.standard with
    name := call.own.value? "name"
    season := call.own.value? "season"
    yearMin := call.integer? "year-min"
    yearMax := call.integer? "year-max"
    noc := call.own.value? "noc"
    sport := call.own.value? "sport"
    medalOnly := call.own.names "medal-only"
    page := call.countOr "page" 1
    pageSize := call.countOr "page-size" 50
    columns := call.texts? "columns" }

def efficiencyParams (call : Call) : EfficiencyParams where
  year := (call.integer? "year").getD 0
  season := call.own.value? "season"
  medal := call.own.value? "medal"
  sortBy := .medalsPerMillion
  topN := call.countOr "top-n" 20

/-- The command that was called. -/
def command? (call : Call) : Option Command :=
  if call.command = Usage.preview then
    call.own.operands.head?.map fun table =>
      .preview table ((call.own.value? "limit").bind readCount?)
  else if call.command = Usage.search then
    some (.search call.searchParams ((call.own.value? "order").getD "file"))
  else if call.command = Usage.sports then some .sports
  else if call.command = Usage.leaderboard then
    some (.leaderboard ⟨call.integer? "year", call.countOr "top-n" 20⟩)
  else if call.command = Usage.efficiency then
    some (.efficiency call.efficiencyParams
      ((call.own.value? "sort-by").getD "medals_per_million"))
  else if call.command = Usage.joinDemo then some (.joinDemo (call.countOr "limit" 100))
  else if call.command = Usage.config then some .config
  else none

end Call

namespace Invocation

/-- The invocation that arguments make. -/
def ofArguments (arguments : List String) : Except Stop Invocation := do
  let call ← Usage.program.read arguments
  match call.command? with
  | none => .error .rejected
  | some command => return {
      settingsFile := call.sharedValue? "config"
      dataDir := call.sharedValue? "data-dir"
      malformed := call.sharedValue? "malformed"
      cache := call.sharedSwitch "cache"
      format := ((call.sharedValue? "format").bind OutputFormat.ofName?).getD .json
      command }

end Invocation

end Medals
