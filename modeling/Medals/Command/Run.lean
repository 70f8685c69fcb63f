import Medals.Command.Basic
import Medals.Csv.Writer
import Medals.Engine.SettingsDocument
import Medals.Json.Lines

/-!
# Running commands

What the program prints and how it ends, as a function of its arguments, its environment and the
files it can read.
-/

namespace Medals

/-- What the program prints, and how it ends. -/
structure Outcome where
  exitCode : Nat
  output : String
  errors : String
deriving DecidableEq, Repr, Inhabited

namespace Outcome

def success (output : String) : Outcome := ⟨0, output, ""⟩

def failure (fault : Fault) : Outcome := ⟨1, "", "Error: " ++ fault.message ++ "\n"⟩

end Outcome

namespace OutputFormat

/-- A document with a line end. -/
def documentText (document : Json) : String :=
  document.spread 0 ++ "\n"

/-- Rows as delimited text. -/
def delimitedText (columns : List String) (rows : List Row) : Except Fault String :=
  match (CsvWriter.start 0x2c columns).writeRows rows with
  | (.ok (), writer) => .ok (Utf8.decodeLossy writer.output)
  | (.error fault, _) => .error fault

/-- An answer in a format: the whole document, or its rows only. -/
def print (format : OutputFormat) (document : Json) (columns : List String) (rows : List Row) :
    Except Fault String :=
  match format with
  | .json => .ok (documentText document)
  | .jsonLines => .ok (JsonLines.start.writeRows rows).output
  | .csv => delimitedText columns rows

/-- A list of sports in a format. -/
def printSports (format : OutputFormat) (sports : List String) : Except Fault String :=
  match format with
  | .json => .ok (documentText (.array (sports.map .text)))
  | .jsonLines => .ok (String.join (sports.map fun sport => Json.textLiteral sport ++ "\n"))
  | .csv => do
    let rows ← sports.mapM fun sport => Row.ofPairs [("Sport", .text sport)]
    delimitedText ["Sport"] rows

end OutputFormat

namespace Invocation

/-- The settings before the options: the environment, and the document that the options name. -/
def baseSettings (invocation : Invocation) (lookup : String → Option String) (files : Files) :
    Except Fault Settings := do
  let settings := Settings.ofEnvironment lookup
  match invocation.settingsFile with
  | none => return settings
  | some path =>
    match files.readText path with
    | .error cause => throw (.unreadable cause)
    | .ok text => return settings.overlay (← SettingsOverlay.parse text)

/-- The settings of an invocation, checked: options go before the document, and the document before
the environment. -/
def settings (invocation : Invocation) (lookup : String → Option String) (files : Files) :
    Except Fault Settings := do
  let policy? ← invocation.malformed.mapM MalformedPolicy.parse
  let base ← invocation.baseSettings lookup files
  let settings := { base with
    dataDir := invocation.dataDir.getD base.dataDir
    malformed := policy?.getD base.malformed
    cacheTables := base.cacheTables || invocation.cache }
  settings.validate
  return settings

/-- The answer of an engine, printed. -/
def answer (invocation : Invocation) (engine : Engine) (files : Files) : Query String := do
  let print (result : QueryResult) : Except Fault String :=
    invocation.format.print result.toJson result.columns result.rows
  match invocation.command with
  | .preview name limit? =>
    let table ← PreviewTable.parse name
    print (← engine.preview files table (limit?.getD table.defaultLimit))
  | .search params name =>
    let order ← SearchOrder.parse name
    let found ← engine.search files { params with order }
    invocation.format.print found.toJson found.columns found.rows
  | .sports => invocation.format.printSports (← engine.sports files)
  | .leaderboard params => print (← engine.leaderboard files params)
  | .efficiency params name =>
    let sortBy ← EfficiencyMetric.parse name
    print (← engine.efficiency files { params with sortBy })
  | .joinDemo limit => print (← engine.joinDemo files limit)
  | .config => return engine.settings.document

/-- Run an invocation. -/
def run (invocation : Invocation) (lookup : String → Option String) (files : Files) : Outcome :=
  match invocation.settings lookup files with
  | .error fault => .failure fault
  | .ok settings =>
    match Engine.ofSettings settings with
    | .error fault => .failure fault
    | .ok engine =>
      match ((invocation.answer engine files).run engine.ownCache).1 with
      | .ok output => .success output
      | .error fault => .failure fault

end Invocation

/-- What the program says instead of running a command. -/
def Stop.outcome : Stop → Outcome
  | .rejected =>
    ⟨2, "", "error: the arguments do not fit\n\n" ++
      "For more information, try '--help'.\n"⟩
  | .version => .success Usage.program.versionText
  | .help none => .success Usage.program.helpText
  | .help (some command) => .success (Usage.program.commandHelp command)
  | .helpWithHelp => .success Usage.program.helpOnHelp

/-- Run the program. -/
def runProgram (arguments : List String) (lookup : String → Option String) (files : Files) :
    Outcome :=
  match Invocation.ofArguments arguments with
  | .error stop => stop.outcome
  | .ok invocation => invocation.run lookup files

end Medals
