import Medals.Engine.Files
import Medals.Table.Basic

/-!
# The table cache

Loaded tables are remembered by path, together with the fingerprint that their file had. A table is
taken from the cache while the fingerprint of its file is the same.
-/

namespace Medals

/-- A remembered table. -/
structure CachedTable where
  /-- The parts of its path. -/
  place : Bool × List String
  fingerprint : Digest
  table : Table
deriving Inhabited

/-- Remembered tables, at most one a path, and how often they were asked for. -/
structure TableCache where
  entries : List CachedTable
  hits : Nat
  misses : Nat
deriving Inhabited

namespace TableCache

def empty : TableCache := ⟨[], 0, 0⟩

/-- The remembered table of a path. -/
def entry? (cache : TableCache) (path : String) : Option CachedTable :=
  cache.entries.find? fun entry => entry.place == Path.parts path

/-- The remembered table of a path, if it has the given fingerprint. -/
def fresh? (cache : TableCache) (path : String) (fingerprint : Digest) : Option Table :=
  match cache.entry? path with
  | some entry => if entry.fingerprint = fingerprint then some entry.table else none
  | none => none

/-- Remember a table in place of the one of its path. -/
def remember (cache : TableCache) (path : String) (fingerprint : Digest) (table : Table) :
    TableCache :=
  { cache with
    entries := cache.entries.filter (fun entry => entry.place != Path.parts path) ++
      [⟨Path.parts path, fingerprint, table⟩] }

def countHit (cache : TableCache) : TableCache :=
  { cache with hits := cache.hits + 1 }

def countMiss (cache : TableCache) : TableCache :=
  { cache with misses := cache.misses + 1 }

/-- The remembered table of a path, or the loaded one. What is loaded is remembered if the file has
a fingerprint; a load that fails changes nothing but the count of misses. -/
def getOrLoad (cache : TableCache) (path : String) (fingerprint? : Option Digest)
    (load : Except Fault Table) : Except Fault Table × TableCache :=
  match fingerprint? with
  | none => (load, cache.countMiss)
  | some fingerprint =>
    match cache.fresh? path fingerprint with
    | some table => (.ok table, cache.countHit)
    | none =>
      match load with
      | .ok table => (.ok table, cache.countMiss.remember path fingerprint table)
      | .error fault => (.error fault, cache.countMiss)

/-- Forget the table of a path, and tell whether there was one. -/
def invalidate (cache : TableCache) (path : String) : Bool × TableCache :=
  ((cache.entry? path).isSome,
    { cache with entries := cache.entries.filter fun entry => entry.place != Path.parts path })

/-- Forget all tables. -/
def clear (cache : TableCache) : TableCache :=
  { cache with entries := [] }

end TableCache

end Medals
