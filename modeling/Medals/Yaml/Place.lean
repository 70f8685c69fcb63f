import Medals.Yaml.Character

/-!
# Places in YAML documents

A place is what is left of a document together with a mark that tells where that begins.
-/

namespace Medals

namespace Yaml

/-- How many characters, lines and characters of the line come before. -/
structure Mark where
  index : Nat
  line : Nat
  column : Nat
deriving DecidableEq, Repr, Inhabited

namespace Mark

def start : Mark := ⟨0, 0, 0⟩

/-- The mark behind a character. -/
def after (mark : Mark) (c : Char) : Mark :=
  if isBreak c then ⟨mark.index + 1, mark.line + 1, 0⟩
  else ⟨mark.index + 1, mark.line, mark.column + 1⟩

end Mark

/-- A place in a document. -/
structure Place where
  mark : Mark
  rest : List Char
deriving Repr, Inhabited

namespace Place

/-- Pass over characters as long as they are of a kind, and keep them. -/
def spanFrom (accepts : Char → Bool) (taken : List Char) (mark : Mark) :
    List Char → List Char × Place
  | [] => (taken.reverse, ⟨mark, []⟩)
  | c :: rest =>
    if accepts c then spanFrom accepts (c :: taken) (mark.after c) rest
    else (taken.reverse, ⟨mark, c :: rest⟩)

/-- The longest run of characters of a kind, and the place behind it. -/
def span (accepts : Char → Bool) (place : Place) : List Char × Place :=
  spanFrom accepts [] place.mark place.rest

/-- The place behind all characters of a kind. -/
def skip (accepts : Char → Bool) (place : Place) : Place :=
  (place.span accepts).2

/-- The place some characters further. -/
def advance (place : Place) (count : Nat) : Place :=
  ⟨(place.rest.take count).foldl Mark.after place.mark, place.rest.drop count⟩

/-- The character that comes next. -/
def next? (place : Place) : Option Char :=
  place.rest.head?

/-- The next line, if nothing but blanks and a comment is left of this one. -/
def nextLine? (place : Place) : Option Place :=
  let place := place.skip isBlank
  let place := if place.next? = some '#' then place.skip (fun c => !isBreak c) else place
  match place.rest with
  | [] => some place
  | c :: _ => if isBreak c then some (place.advance 1) else none

end Place

end Yaml

end Medals
