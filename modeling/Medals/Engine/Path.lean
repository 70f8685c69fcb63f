/-!
# Paths

Paths are texts. Two paths name the same place for the table cache when they have the same parts,
whatever separators stand between them.
-/

namespace Medals

namespace Path

/-- The place of one path seen from another; an absolute path stays where it is. -/
def join (base inner : String) : String :=
  if inner.startsWith "/" then inner
  else if base = "" ∨ base.endsWith "/" then base ++ inner
  else base ++ "/" ++ inner

/-- The texts between separators. -/
def segments (path : String) : List String :=
  (path.toList.splitOn '/').map String.ofList

/-- The parts of a path: it is absolute or not, and a dot counts only at the beginning. -/
def parts (path : String) : Bool × List String :=
  let absolute := path.startsWith "/"
  let named := (segments path).filter fun segment => segment != "" && segment != "."
  (absolute, if !absolute && (segments path).head? == some "." then "." :: named else named)

/-- The root of all absolute paths. -/
def root : List String := ["/"]

/-- The place one level up. Places above the starting place are told apart by how far up they are,
and nothing is above the root. -/
def above (place : List String) : List String :=
  match place.getLast? with
  | none => [".."]
  | some last =>
    if last = ".." then place ++ [".."] else if place = root then root else place.dropLast

/-- The place that a segment leads to. -/
def step (place : List String) (segment : String) : List String :=
  if segment = "" ∨ segment = "." then place
  else if segment = ".." then above place
  else place ++ [segment]

/-- Where a path begins. -/
def origin (path : String) : List String :=
  if path.startsWith "/" then root else []

/-- The places that segments lead through from a place, each after the one before. -/
def trail (place : List String) : List String → List (List String)
  | [] => []
  | segment :: rest => step place segment :: trail (step place segment) rest

/-- The places that a path leads through, the one it leads to at the end. -/
def visited (path : String) : List (List String) :=
  trail (origin path) (segments path)

/-- The place a path leads to. -/
def place (path : String) : List String :=
  (segments path).foldl step (origin path)

end Path

end Medals
