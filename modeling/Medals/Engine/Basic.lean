import Medals.Engine.Cache
import Medals.Engine.Settings
import Medals.Stream.Page

/-!
# The engine

An engine holds checked settings and answers queries over the files it is given. It has no state of
its own: a table cache, if there is one, is passed from query to query.
-/

namespace Medals

/-- Checked settings. -/
structure Engine where
  settings : Settings
  checked : settings.validate = .ok ()

/-- A computation that may use a table cache and may fail; what it does to the cache stays, whether
it fails or not. -/
abbrev Query := ExceptT Fault (StateM (Option TableCache))

namespace Engine

/-- An engine for settings that pass their check. -/
def ofSettings (settings : Settings) : Except Fault Engine :=
  match check : settings.validate with
  | .ok () => .ok ⟨settings, check⟩
  | .error fault => .error fault

/-- The cache that an engine starts with. -/
def ownCache (engine : Engine) : Option TableCache :=
  if engine.settings.cacheTables then some .empty else none

/-- Open a file as a source of rows. -/
def openFile (files : Files) (path : String) (options : ReadOptions) : Except Fault RowReader :=
  match files.find path with
  | .missing cause => .error (.cannotOpen path cause)
  | .directory => .error (.unreadable .isDirectory)
  | .file file => RowReader.openData file.bytes path options

/-- Open a table with given options. -/
def openWith (engine : Engine) (files : Files) (table : Dataset) (options : ReadOptions) :
    Except Fault RowReader := do
  let path ← engine.settings.path table
  match openFile files path options with
  | .ok reader => return reader
  | .error fault => throw (.tableUnavailable table fault)

/-- Open a table. -/
def openTable (engine : Engine) (files : Files) (table : Dataset) : Except Fault RowReader :=
  engine.openWith files table (engine.settings.readOptionsOf table)

/-- Open the first rows of a table. -/
def openFirst (engine : Engine) (files : Files) (table : Dataset) (limit : Nat) :
    Except Fault RowReader :=
  engine.openWith files table
    { engine.settings.readOptionsOf table with limit := some limit }

/-- Read a whole table. -/
def readTable (engine : Engine) (files : Files) (table : Dataset) : Except Fault Table := do
  let reader ← engine.openTable files table
  (Pipeline.ofReader reader).toTable.1

/-- Load a small table, through the cache if there is one. Events are always read afresh. -/
def load (engine : Engine) (files : Files) (table : Dataset) : Query Table := fun cache? =>
  match cache?, table with
  | none, _ => (engine.readTable files table, none)
  | some cache, .events => (engine.readTable files .events, some cache)
  | some cache, _ =>
    match engine.settings.path table with
    | .error fault => (.error fault, some cache)
    | .ok path =>
      match cache.getOrLoad path (files.fingerprint? path) (engine.readTable files table) with
      | (loaded, cache) => (loaded, some cache)

end Engine

end Medals
