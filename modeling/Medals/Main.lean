import Medals.Command.Run

/-!
# The program

Collects what the program may look at, namely its arguments, the environment, the settings document
and the tables, and prints what `runProgram` makes of it.
-/

namespace Medals

/-- Add a file to those at hand. A path that leads nowhere adds nothing. -/
def readInto (files : Files) (path : String) : IO Files := do
  try
    let bytes ← IO.FS.readBinFile path
    return files.write path ⟨bytes.toList, 0⟩
  catch
    | .inappropriateType _ code _ =>
      return if code = 21 then files.keepDirectory path else files
    | _ => return files

/-- The variables of the environment that name settings, with their values. -/
def readEnvironment : IO (String → Option String) := do
  let values ← Settings.environmentNames.mapM fun name => return (name, ← IO.getEnv name)
  return fun name => (values.find? fun entry => entry.1 == name).bind Prod.snd

/-- The files that an invocation looks at: its settings document, and then the tables that its
settings name. -/
def readFiles (arguments : List String) (lookup : String → Option String) : IO Files := do
  match Invocation.ofArguments arguments with
  | .error _ => return .empty
  | .ok invocation =>
    let files ← invocation.settingsFile.toList.foldlM readInto .empty
    match invocation.settings lookup files with
    | .error _ => return files
    | .ok settings => settings.tablePaths.foldlM readInto files

end Medals

def main (arguments : List String) : IO UInt32 := do
  let lookup ← Medals.readEnvironment
  let files ← Medals.readFiles arguments lookup
  let outcome := Medals.runProgram arguments lookup files
  IO.print outcome.output
  IO.eprint outcome.errors
  return UInt32.ofNat outcome.exitCode
