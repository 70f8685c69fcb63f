import Medals.Text.EscapeTable
import Medals.Text.CaseTable

/-!
# Lower case

The full Unicode lower-case mapping of a text. Each letter is mapped on its own, except a capital
sigma, which takes its final form at the end of a word.
-/

namespace Medals

/-- The lower-case form of one letter; only the dotted capital I has two characters. -/
def lowerChar (c : Char) : List Char :=
  if c.toNat < 128 then [c.toLower]
  else if c = '\u0130' then ['i', '\u0307']
  else
    match caseRuns.find? (fun run => decide (run.first ≤ c.toNat) && decide (c.toNat ≤ run.last) &&
        (c.toNat - run.first) % run.step == 0) with
    | some run => [Char.ofNat ((c.toNat : Int) + run.offset).toNat]
    | none => [c]

def isCased (c : Char) : Bool :=
  inBoundaries casedBoundaries c.toNat

def isCaseIgnorable (c : Char) : Bool :=
  inBoundaries caseIgnorableBoundaries c.toNat

/-- The first character that is not case-ignorable is a cased letter. -/
def meetsCased (chars : List Char) : Bool :=
  match chars.find? (fun c => !isCaseIgnorable c) with
  | some c => isCased c
  | none => false

/-- Lower the rest of a text, given what precedes it, nearest character first. -/
def lowerAfter (before : List Char) : List Char → List Char
  | [] => []
  | c :: after =>
    let lowered :=
      if c = '\u03a3' then
        [if meetsCased before && !meetsCased after then '\u03c2' else '\u03c3']
      else lowerChar c
    lowered ++ lowerAfter (c :: before) after

/-- The lower-case form of a text. -/
def lowerChars (chars : List Char) : List Char :=
  lowerAfter [] chars

/-- The lower-case form of a text. -/
def lowered (text : String) : String :=
  String.ofList (lowerChars text.toList)

/-- `needle` occurs in the characters as a contiguous piece. -/
def containsChars (needle : List Char) : List Char → Bool
  | [] => needle.isEmpty
  | c :: rest => needle.isPrefixOf (c :: rest) || containsChars needle rest

end Medals
