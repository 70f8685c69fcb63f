import Medals.Digest.Blake3
import Medals.Engine.Path
import Medals.Fault
import Medals.Text.Utf8

/-!
# Files

The files that paths lead to, as a value: contents and modification times by place. A directory is
there once a file lies in it or a path to a file that was written has led through it.
-/

namespace Medals

/-- A file's bytes and the time of its last change, in nanoseconds from the epoch. -/
structure StoredFile where
  bytes : List UInt8
  modified : Int
deriving DecidableEq, Repr, Inhabited

/-- Files by place, each place once. -/
structure Files where
  entries : List (List String × StoredFile)
  /-- Directories that stay though no file lies in them. -/
  directories : List (List String)
deriving Repr, Inhabited

namespace Files

def empty : Files := ⟨[], []⟩

/-- What is found at a place. -/
inductive Found where
  | file (file : StoredFile)
  | directory
  | missing (cause : FileFault)

def file? (files : Files) (place : List String) : Option StoredFile :=
  (files.entries.find? fun entry => entry.1 == place).map Prod.snd

/-- The place is a directory: the starting place and what is above it, the root, one that a file
lies in, or one that was kept. -/
def isDirectory (files : Files) (place : List String) : Bool :=
  place.all (· == "..") || place == Path.root ||
    files.directories.any (fun kept => place.isPrefixOf kept) ||
    files.entries.any fun entry => place.isPrefixOf entry.1 && place.length < entry.1.length

/-- Why nothing can be found in a place that is no directory. -/
def obstacle (files : Files) (place : List String) : FileFault :=
  if (files.file? place).isSome then .notDirectory else .notFound

/-- What is wrong with a path whatever files there are: no path holds a NUL, is empty or has 4096
bytes or more. -/
def defect? (path : String) : Option FileFault :=
  if path.toList.contains '\x00' then some .holdsNul
  else if path = "" then some .notFound
  else if 4096 ≤ path.utf8ByteSize then some .nameTooLong
  else none

/-- Follow one segment from a place. Only a directory can be passed through, so that a separator
behind the name of a file leads nowhere, and no directory holds a name of more than 255 bytes. -/
def enter (files : Files) (place : List String) (segment : String) :
    Except FileFault (List String) :=
  if !files.isDirectory place then .error (files.obstacle place)
  else if 255 < segment.utf8ByteSize then .error .nameTooLong
  else .ok (Path.step place segment)

/-- Follow segments from a place. -/
def follow (files : Files) (place : List String) : List String → Except FileFault (List String)
  | [] => .ok place
  | segment :: rest =>
    match files.enter place segment with
    | .ok next => follow files next rest
    | .error cause => .error cause

/-- What lies at a place. -/
def foundAt (files : Files) (place : List String) : Found :=
  match files.file? place with
  | some file => .file file
  | none => if files.isDirectory place then .directory else .missing .notFound

/-- Follow a path. -/
def find (files : Files) (path : String) : Found :=
  match defect? path with
  | some cause => .missing cause
  | none =>
    match files.follow (Path.origin path) (Path.segments path) with
    | .ok place => files.foundAt place
    | .error cause => .missing cause

/-- Put a file at a place, over the one that was there. -/
def put (files : Files) (place : List String) (file : StoredFile) : Files :=
  { files with entries := files.entries.filter (fun entry => entry.1 != place) ++ [(place, file)] }

/-- Make a directory if there is none. -/
def makeDirectory (files : Files) (place : List String) : Files :=
  if files.isDirectory place then files
  else { files with directories := place :: files.directories }

/-- Keep a directory, with those that the path to it leads through. -/
def keepDirectory (files : Files) (path : String) : Files :=
  (Path.visited path).foldl makeDirectory files

/-- Write a file. Directories that its path leads through are made if need be. -/
def write (files : Files) (path : String) (file : StoredFile) : Files :=
  ((Path.visited path).dropLast.foldl makeDirectory files).put (Path.place path) file

/-- Remove a file, and tell whether there was one; its directory stays. -/
def remove (files : Files) (path : String) : Bool × Files :=
  let place := Path.place path
  match files.find path with
  | .file _ =>
    (true, ⟨files.entries.filter (fun entry => entry.1 != place),
      place.dropLast :: files.directories⟩)
  | _ => (false, files)

/-- Create a file, or say why it cannot be created: the directories of its path have to be there,
and what it ends in has to be a name, without a separator behind it. -/
def create (files : Files) (path : String) (file : StoredFile) : Except FileFault Files :=
  match defect? path, (Path.segments path).reverse.dropWhile (· == "") with
  | some cause, _ => .error cause
  | none, [] => .error .isDirectory
  | none, name :: before =>
    match files.follow (Path.origin path) (before.reverse ++ ["."]) with
    | .error cause => .error cause
    | .ok directory =>
      if name = "." ∨ name = ".." ∨ path.endsWith "/" then .error .isDirectory
      else
        match files.enter directory name with
        | .error cause => .error cause
        | .ok place =>
          if files.isDirectory place then .error .isDirectory else .ok (files.put place file)

/-- The text of a file. -/
def readText (files : Files) (path : String) : Except FileFault String :=
  match files.find path with
  | .missing cause => .error cause
  | .directory => .error .isDirectory
  | .file file =>
    match Utf8.decode? file.bytes with
    | some text => .ok text
    | none => .error .notText

/-- What tells one state of a file from another: its size, the time of its last change and the path
it was asked under, condensed to a digest. Times before the epoch count as the epoch. -/
def fingerprint? (files : Files) (path : String) : Option Digest :=
  match files.find path with
  | .file file =>
    some (Digest.ofParts [littleEndian 8 file.bytes.length, littleEndian 16 file.modified.toNat,
      Utf8.encode path])
  | _ => none

end Files

end Medals
