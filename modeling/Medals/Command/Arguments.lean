import Medals.Command.Usage

/-!
# Reading arguments

Arguments are read from left to right: options of the program, the name of a command, and then its
options and its operand, among which the options of the program may stand as well. An option has its
value behind an equals sign or in the next argument, which may not begin with a dash. The first
argument that does not fit decides, and so does the first that asks for help.
-/

namespace Medals

/-- Why no command is run. -/
inductive Stop where
  /-- The arguments do not fit the usage. -/
  | rejected
  | version
  /-- Help is asked for, with all of the program or with one command. -/
  | help (command : Option CommandUsage)
  /-- Help is asked for, with asking for help. -/
  | helpWithHelp
deriving Repr

/-- What has been read: options with their values, switches with empty ones, and operands. -/
structure Given where
  values : List (String × String)
  operands : List String
  /-- The last option, with a value that stands in an argument of its own and has not been looked at
  yet. -/
  pending? : Option (OptionUsage × String)
deriving DecidableEq, Repr, Inhabited

namespace Given

def none : Given := ⟨[], [], .none⟩

/-- The option has been named. -/
def names (given : Given) (name : String) : Bool :=
  given.values.any fun entry => entry.1 == name

/-- All values of an option. -/
def valuesOf (given : Given) (name : String) : List String :=
  (given.values.filter fun entry => entry.1 == name).map Prod.snd

/-- The value of an option. -/
def value? (given : Given) (name : String) : Option String :=
  (given.valuesOf name).head?

/-- Take an option into account, unless it is there already or does not take the value. -/
def addValue (given : Given) (option : OptionUsage) (value : String) : Except Stop Given :=
  if given.names option.name && !option.kind.repeats then .error .rejected
  else if option.kind.accepts value then
    .ok { given with values := given.values ++ [(option.name, value)] }
  else .error .rejected

/-- Take a switch into account, unless it is there already. -/
def addSwitch (given : Given) (option : OptionUsage) : Except Stop Given :=
  if given.names option.name then .error .rejected
  else .ok { given with values := given.values ++ [(option.name, "")] }

/-- Take the last option into account. -/
def settle (given : Given) : Except Stop Given :=
  match given.pending? with
  | some (option, value) => { given with pending? := .none }.addValue option value
  | .none => .ok given

end Given

/-- A part of the command line: which options and how many operands may stand there, and what it
describes. The part before the command ends at the first operand. -/
structure Level where
  options : List OptionUsage
  command : Option CommandUsage
deriving Repr

namespace Level

/-- How many operands the part takes. -/
def capacity (level : Level) : Nat :=
  match level.command with
  | some command => if command.operand.isSome then 1 else 0
  | none => 0

/-- The option of a name. -/
def option? (level : Level) (name : String) : Option OptionUsage :=
  level.options.find? fun option => option.name == name

/-- Take operands into account, at most as many as fit. -/
def addOperands (level : Level) (given : Given) (operands : List String) : Except Stop Given :=
  if given.operands.length + operands.length ≤ level.capacity then
    .ok { given with operands := given.operands ++ operands }
  else .error .rejected

/-- Arguments that ask for something else than a command: help, or the version of the program. -/
def request? (level : Level) (argument : List Char) : Option Stop :=
  match argument with
  | '-' :: 'h' :: _ => some (.help level.command)
  | '-' :: 'V' :: _ => if level.command.isNone then some .version else none
  | _ =>
    if argument = "--help".toList then some (.help level.command)
    else if argument = "--version".toList ∧ level.command.isNone then some .version
    else none

/-- Read a part of the command line; what is left begins with the name of a command. A value in an
argument of its own is looked at when the next option or operand comes, or at the end of the
part. -/
def read (level : Level) (given : Given) : List String → Except Stop (Given × List String)
  | [] => do return (← given.settle, [])
  | argument :: rest =>
    match level.request? argument.toList, argument.toList with
    | some stop, _ => do
      let _ ← given.settle
      .error stop
    | none, '-' :: '-' :: body =>
      if body = [] then do
        if level.command.isNone then .error .rejected
        return (← level.addOperands (← given.settle) rest, [])
      else
        let name := String.ofList (body.takeWhile (· != '='))
        match level.option? name, body.dropWhile (· != '='), given.settle with
        | none, _, _ => .error .rejected
        | _, _, .error stop => .error stop
        | some option, '=' :: value, .ok given =>
          if option.kind = .switch then .error .rejected
          else
            match given.addValue option (String.ofList value) with
            | .ok given => read level given rest
            | .error stop => .error stop
        | some option, _, .ok given =>
          if option.kind = .switch then
            match given.addSwitch option with
            | .ok given => read level given rest
            | .error stop => .error stop
          else
            match rest with
            | [] => .error .rejected
            | value :: rest =>
              if value.startsWith "-" ∧ value ≠ "-" then .error .rejected
              else read level { given with pending? := some (option, value) } rest
    | none, chars =>
      if chars.head? = some '-' ∧ chars ≠ ['-'] then .error .rejected
      else if level.command.isNone then .ok (given, argument :: rest)
      else
        match given.settle with
        | .error stop => .error stop
        | .ok given =>
          match level.addOperands given [argument] with
          | .ok given => read level given rest
          | .error stop => .error stop

end Level

/-- A command with what it was called with. -/
structure Call where
  command : CommandUsage
  /-- Options of the program that stand before the command. -/
  before : Given
  /-- Options and operands that stand behind the command. -/
  own : Given
deriving Repr

namespace Call

/-- The value of an option of the program; the one behind the command counts. -/
def sharedValue? (call : Call) (name : String) : Option String :=
  (call.own.value? name).or (call.before.value? name)

/-- A switch of the program is on. -/
def sharedSwitch (call : Call) (name : String) : Bool :=
  call.own.names name || call.before.names name

/-- All that has to be there is there. -/
def isComplete (call : Call) : Bool :=
  call.command.options.all (fun option => !option.required || call.own.names option.name) &&
    (call.command.operand.isNone || !call.own.operands.isEmpty)

end Call

namespace ProgramUsage

/-- The command of a name. -/
def command? (program : ProgramUsage) (name : String) : Option CommandUsage :=
  program.commands.find? fun command => command.name == name

/-- What the words behind `help` ask for. -/
def helpFor (program : ProgramUsage) (names : List String) : Stop :=
  match names with
  | [] => .help none
  | [name] =>
    match program.command? name with
    | some command => .help (some command)
    | none => if name = "help" then .helpWithHelp else .rejected
  | _ => .rejected

/-- Read the arguments of the program. The value right before the name of the command is looked at
last, so that help is given whatever it is. -/
def read (program : ProgramUsage) (arguments : List String) : Except Stop Call := do
  let (before, rest) ← Level.read ⟨program.options, none⟩ .none arguments
  match rest with
  | [] => .error .rejected
  | name :: rest =>
    match program.command? name with
    | none => .error (if name = "help" then program.helpFor rest else .rejected)
    | some command =>
      let (own, _) ← Level.read ⟨command.options ++ program.options, some command⟩ .none rest
      let call : Call := ⟨command, ← before.settle, own⟩
      if call.isComplete then return call else .error .rejected

end ProgramUsage

end Medals
