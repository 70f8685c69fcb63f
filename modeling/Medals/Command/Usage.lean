import Medals.Number.Reading

/-!
# Usage

What the commands are called with: their options and operands, what an option takes, and the help
texts that tell so. Arguments are read against this description.
-/

namespace Medals

/-- What an option takes. -/
inductive OptionKind where
  /-- Nothing; the option is on when it is named. -/
  | switch
  | text
  /-- A text that is not empty. -/
  | path
  | count
  | integer
  /-- One of some words. -/
  | choice (words : List String)
  /-- Texts between commas; the option may be named again for more of them. -/
  | texts
deriving DecidableEq, Repr, Inhabited

namespace OptionKind

/-- The value is one that the option takes. -/
def accepts (kind : OptionKind) (value : String) : Bool :=
  match kind with
  | switch => false
  | text => true
  | path => value != ""
  | count => (readCount? value).isSome
  | integer => (readInt64? value).isSome
  | choice words => words.contains value
  | texts => true

/-- The option may be named more than once. -/
def repeats : OptionKind → Bool
  | texts => true
  | _ => false

end OptionKind

/-- An option, named by two dashes and its name. -/
structure OptionUsage where
  name : String
  kind : OptionKind
  help : String
  default : Option String
  required : Bool
deriving DecidableEq, Repr, Inhabited

namespace OptionUsage

/-- The word that stands for something in help texts: upper case, dashes as underscores. -/
def placeholder (name : String) : String :=
  "<" ++ String.ofList (name.toList.map fun c => if c = '-' then '_' else c.toUpper) ++ ">"

/-- The option with a placeholder for its value. -/
def shown (option : OptionUsage) : String :=
  if option.kind = .switch then "--" ++ option.name
  else "--" ++ option.name ++ " " ++ placeholder option.name

/-- What the help says of an option: its purpose, its default and its words. -/
def explanation (option : OptionUsage) : String :=
  let purpose := if option.help = "" then [] else [option.help]
  let default := match option.default with
    | some value => ["[default: " ++ value ++ "]"]
    | none => []
  let words := match option.kind with
    | .choice words => ["[possible values: " ++ String.intercalate ", " words ++ "]"]
    | _ => []
  String.intercalate " " (purpose ++ default ++ words)

end OptionUsage

/-- A command with its operand, if it takes one, and its own options. -/
structure CommandUsage where
  name : String
  help : String
  operand : Option String
  options : List OptionUsage
deriving DecidableEq, Repr, Inhabited

/-- A program with its commands and the options that may stand before and behind the command. -/
structure ProgramUsage where
  name : String
  version : String
  help : String
  options : List OptionUsage
  commands : List CommandUsage
deriving Repr, Inhabited

/-- A text filled up with spaces. -/
def padded (width : Nat) (text : String) : String :=
  text ++ String.ofList (List.replicate (width - text.length) ' ')

/-- Lines of two columns under a heading, the second column two spaces behind the longest entry of
the first. -/
def helpSection (heading : String) (entries : List (String × String)) : String :=
  let width := (entries.map fun entry => entry.1.length).foldl max 0
  heading ++ ":\n" ++
    String.join (entries.map fun entry => "  " ++ padded width entry.1 ++ "  " ++ entry.2 ++ "\n")

namespace ProgramUsage

/-- The line that tells the version. -/
def versionText (program : ProgramUsage) : String :=
  program.name ++ " " ++ program.version ++ "\n"

/-- Options in the order in which help lists them: by their places among the options of the command
or of the program, options of one place by name. -/
def listed (program : ProgramUsage) (options : List OptionUsage) : List OptionUsage :=
  let placed := (options.zipIdx ++ program.options.zipIdx).mergeSort fun first second =>
    first.2 < second.2 || (first.2 == second.2 && first.1.name ≤ second.1.name)
  placed.map Prod.fst

def optionEntry (option : OptionUsage) : String × String :=
  ("    " ++ option.shown, option.explanation)

def helpEntry : String × String := ("-h, --help", "Print help")

/-- What asking for help does. -/
def helpPurpose : String := "Print this message or the help of the given subcommand(s)"

/-- The help of the program. -/
def helpText (program : ProgramUsage) : String :=
  program.help ++ "\n\nUsage: " ++ program.name ++ " [OPTIONS] <COMMAND>\n\n" ++
    helpSection "Commands" ((program.commands.map fun command => (command.name, command.help)) ++
      [("help", helpPurpose)]) ++ "\n" ++
    helpSection "Options" ((program.listed []).map optionEntry ++
      [helpEntry, ("-V, --version", "Print version")])

/-- The line that tells how a command is called. -/
def usageLine (program : ProgramUsage) (command : CommandUsage) : String :=
  let required := (command.options.filter fun option => option.required).map fun option =>
    " " ++ option.shown
  let operand := match command.operand with
    | some name => " " ++ OptionUsage.placeholder name
    | none => ""
  "Usage: " ++ program.name ++ " " ++ command.name ++ " [OPTIONS]" ++ String.join required ++ operand

/-- The help of a command. -/
def commandHelp (program : ProgramUsage) (command : CommandUsage) : String :=
  let operand := match command.operand with
    | some name => helpSection "Arguments" [(OptionUsage.placeholder name, "")] ++ "\n"
    | none => ""
  command.help ++ "\n\n" ++ program.usageLine command ++ "\n\n" ++ operand ++
    helpSection "Options" ((program.listed command.options).map optionEntry ++ [helpEntry])

/-- The help of asking for help, which takes the name of a command and no options. -/
def helpOnHelp (program : ProgramUsage) : String :=
  helpPurpose ++ "\n\nUsage: " ++ program.name ++ " help [COMMAND]...\n\n" ++
    helpSection "Arguments" [("[COMMAND]...", "Print help for the subcommand(s)")]

end ProgramUsage

end Medals
