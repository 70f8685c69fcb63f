import Medals.Yaml.Plain
import Medals.Yaml.Token

/-!
# Texts of scalars

The texts of scalars in all five styles. In a plain or quoted scalar a single line feed counts as a
space, and of several all but the first are kept; breaks of other kinds are kept. Blanks around a
break are left out.
-/

namespace Medals

namespace Yaml

/-- Blanks and breaks between the words of a scalar, last ones first. -/
structure Gap where
  blanks : List Char
  /-- There was a line break. -/
  broken : Bool
  /-- The first line break, unless a backslash took it back. -/
  first : List Char
  later : List Char
deriving DecidableEq, Repr

namespace Gap

/-- No gap at all. -/
def none : Gap := ⟨[], false, [], []⟩

/-- A line break that a backslash took back. -/
def joined : Gap := ⟨[], true, [], []⟩

def isNone (gap : Gap) : Bool :=
  !gap.broken && gap.blanks.isEmpty

/-- Take a blank or a break into account. -/
def add (gap : Gap) (c : Char) : Gap :=
  if isBreak c then
    if gap.broken then { gap with later := c :: gap.later } else ⟨[], true, [c], []⟩
  else if gap.broken then gap
  else { gap with blanks := c :: gap.blanks }

/-- What is kept of a gap, last character first. -/
def folded (gap : Gap) : List Char :=
  if !gap.broken then gap.blanks
  else if gap.first = ['\n'] then if gap.later = [] then [' '] else gap.later
  else gap.later ++ gap.first

end Gap

/-- A plain scalar, whether a line break follows it, and the place behind that. -/
structure PlainText where
  text : List Char
  broken : Bool
  place : Place
deriving Repr

/-- The rest of a plain scalar. Lines that go on with it are indented by at least `margin`, unless
it stands in a flow; the text so far is kept last character first. -/
def plainFrom (flow : Bool) (margin : Nat) (text : List Char) (gap : Gap) (mark : Mark) :
    List Char → Option PlainText
  | [] => some ⟨text.reverse, gap.broken, ⟨mark, []⟩⟩
  | c :: rest =>
    if isBlank c || isBreak c then
      if c = '\t' ∧ gap.broken ∧ mark.column < margin then none
      else plainFrom flow margin text (gap.add c) (mark.after c) rest
    else
      let interrupted := !gap.isNone &&
        (c == '#' || (!flow && decide (mark.column < margin)) ||
          (mark.column == 0 && documentMarkFollows (c :: rest)))
      let colonEnds := c == ':' && blankFollows rest
      if !interrupted && flow && c == ':' && rest.head?.any (fun d => isFlowMark d || d == '?') then
        none
      else if interrupted || colonEnds || (flow && isFlowMark c) then
        some ⟨text.reverse, gap.broken, ⟨mark, c :: rest⟩⟩
      else plainFrom flow margin (c :: (gap.folded ++ text)) .none (mark.after c) rest

/-- The rest of a scalar between single quotes, without the opening one. -/
def singleQuotedFrom (text : List Char) (gap : Gap) (mark : Mark) :
    List Char → Option (List Char × Place)
  | [] => none
  | '\'' :: '\'' :: rest =>
    singleQuotedFrom ('\'' :: (gap.folded ++ text)) .none ((mark.after '\'').after '\'') rest
  | c :: rest =>
    if isBlank c || isBreak c then singleQuotedFrom text (gap.add c) (mark.after c) rest
    else if c = '\'' then some ((gap.folded ++ text).reverse, ⟨mark.after c, rest⟩)
    else if mark.column = 0 ∧ documentMarkFollows (c :: rest) then none
    else singleQuotedFrom (c :: (gap.folded ++ text)) .none (mark.after c) rest

/-- The character that a letter stands for after a backslash. -/
def escaped? (c : Char) : Option Char :=
  ([('0', '\x00'), ('a', '\x07'), ('b', '\x08'), ('t', '\t'), ('\t', '\t'), ('n', '\n'),
    ('v', '\x0b'), ('f', '\x0c'), ('r', '\r'), ('e', '\x1b'), (' ', ' '), ('"', '"'), ('/', '/'),
    ('\\', '\\'), ('N', '\u0085'), ('_', '\u00a0'), ('L', '\u2028'), ('P', '\u2029')].find?
      fun entry => entry.1 == c).map Prod.snd

/-- How many hexadecimal digits follow a letter after a backslash. -/
def escapeWidth? (c : Char) : Option Nat :=
  if c = 'x' then some 2 else if c = 'u' then some 4 else if c = 'U' then some 8 else none

/-- The character with a code point written in so many hexadecimal digits. -/
def escapedCode? (width : Nat) (chars : List Char) : Option Char :=
  match naturalInBase? 16 (chars.take width) with
  | some code =>
    if width ≤ chars.length ∧ code.isValidChar then some (Char.ofNat code) else none
  | none => none

/-- The character after a backslash, and how many characters it is written with. -/
def escape? (chars : List Char) : Option (Char × Nat) :=
  match chars with
  | [] => none
  | c :: rest =>
    match escaped? c, escapeWidth? c with
    | some value, _ => some (value, 1)
    | none, some width => (escapedCode? width rest).map fun value => (value, 1 + width)
    | none, none => none

/-- The rest of a scalar between double quotes, without the opening one. The fuel is the length of
what is left. -/
def doubleQuotedFrom (text : List Char) (gap : Gap) (place : Place) :
    Nat → Option (List Char × Place)
  | 0 => none
  | fuel + 1 =>
    match place.rest with
    | [] => none
    | c :: rest =>
      if isBlank c || isBreak c then doubleQuotedFrom text (gap.add c) (place.advance 1) fuel
      else if c = '"' then some ((gap.folded ++ text).reverse, place.advance 1)
      else if place.mark.column = 0 ∧ documentMarkFollows (c :: rest) then none
      else if c = '\\' then
        if rest.head?.any isBreak then
          doubleQuotedFrom (gap.folded ++ text) .joined (place.advance 2) fuel
        else
          match escape? rest with
          | some (value, width) =>
            doubleQuotedFrom (value :: (gap.folded ++ text)) .none (place.advance (1 + width)) fuel
          | none => none
      else doubleQuotedFrom (c :: (gap.folded ++ text)) .none (place.advance 1) fuel

/-- What a block scalar does with the line breaks after its last line. -/
inductive Chomping where
  | clip
  | strip
  | keep
deriving DecidableEq, Repr

/-- A sign of chomping. -/
def chomping? (c : Char) : Option Chomping :=
  if c = '-' then some .strip else if c = '+' then some .keep else none

/-- The signs of a block scalar: what it does at its end, and by how much its lines are indented, if
that is told. -/
structure BlockSigns where
  chomping : Chomping
  indentation? : Option Nat
deriving DecidableEq, Repr

/-- The signs after the mark of a block scalar, in either order. An indentation of zero is none. -/
def blockSigns? (place : Place) : Option (BlockSigns × Place) :=
  let digit? (place : Place) : Option Nat :=
    (place.next?.filter Numeral.isDigit).map fun c => c.toNat - '0'.toNat
  let sign? (place : Place) : Option Chomping := place.next?.bind chomping?
  let (signs, place) : BlockSigns × Place := match sign? place, digit? place with
    | some chomping, _ =>
      match digit? (place.advance 1) with
      | some digit => (⟨chomping, some digit⟩, place.advance 2)
      | none => (⟨chomping, none⟩, place.advance 1)
    | none, some digit =>
      match sign? (place.advance 1) with
      | some chomping => (⟨chomping, some digit⟩, place.advance 2)
      | none => (⟨.clip, some digit⟩, place.advance 1)
    | none, none => (⟨.clip, none⟩, place)
  if signs.indentation? = some 0 then none else some (signs, place)

/-- The place of the next line of a block scalar, the breaks before it, last one first, and the
margin: as far as the lines are indented. -/
structure BlockGap where
  margin : Nat
  breaks : List Char
  place : Place
deriving Repr

/-- Pass over line breaks and margins. An unknown margin is at least `least`, and otherwise as wide
as the spaces before the next line or those of a wider empty line before it. No tab may stand in a
margin. -/
def blockGapFrom (margin? : Option Nat) (least : Nat) (breaks : List Char) (mark : Mark) :
    List Char → Option BlockGap
  | [] => some ⟨margin?.getD (max least mark.column), breaks, ⟨mark, []⟩⟩
  | c :: rest =>
    let inMargin := margin?.all fun margin => decide (mark.column < margin)
    if inMargin ∧ c = ' ' then blockGapFrom margin? least breaks (mark.after c) rest
    else if inMargin ∧ c = '\t' then none
    else if isBreak c then
      blockGapFrom margin? (max least mark.column) (c :: breaks) (mark.after c) rest
    else some ⟨margin?.getD (max least mark.column), breaks, ⟨mark, c :: rest⟩⟩

/-- The lines of a block scalar so far. -/
structure BlockLines where
  /-- The text without the break after its last line, last character first. -/
  text : List Char
  /-- That break, if there is one. -/
  ending : List Char
  /-- The last line begins with a blank. -/
  indented : Bool
deriving Repr

namespace BlockLines

def none : BlockLines := ⟨[], [], false⟩

/-- Add a line after some more breaks. A folded scalar has a space in place of a single line feed
between two lines that do not begin with a blank, and leaves the first one of several out. -/
def add (folding : Bool) (lines : BlockLines) (breaks line ending : List Char) : BlockLines :=
  let indented := line.head?.any isBlank
  let joint :=
    if folding && lines.ending == ['\n'] && !lines.indented && !indented then
      if breaks = [] then [' '] else []
    else lines.ending
  ⟨line.reverse ++ (breaks ++ (joint ++ lines.text)), ending, indented⟩

/-- The text of all lines, and of the breaks that follow them. -/
def finish (chomping : Chomping) (lines : BlockLines) (breaks : List Char) : List Char :=
  match chomping with
  | .strip => lines.text.reverse
  | .clip => (lines.ending ++ lines.text).reverse
  | .keep => (breaks ++ (lines.ending ++ lines.text)).reverse

end BlockLines

/-- The rest of a block scalar after some lines. The fuel is the length of what is left. -/
def blockLinesFrom (folding : Bool) (chomping : Chomping) (lines : BlockLines) (gap : BlockGap) :
    Nat → Option (List Char × Place)
  | 0 => none
  | fuel + 1 =>
    if gap.place.mark.column = gap.margin ∧ gap.place.rest ≠ [] then
      let (line, place) := gap.place.span fun c => !isBreak c
      let ending := place.rest.take 1
      let place := place.advance 1
      match blockGapFrom (some gap.margin) 0 [] place.mark place.rest with
      | some next =>
        blockLinesFrom folding chomping (lines.add folding gap.breaks line ending) next fuel
      | none => none
    else some (lines.finish chomping gap.breaks, gap.place)

/-- A literal or folded block scalar after its mark. `level` is the least column of what stands
inside the collection around it. -/
def blockText? (folding : Bool) (level : Nat) (place : Place) : Option (List Char × Place) := do
  let (signs, place) ← blockSigns? place
  let place ← place.nextLine?
  let margin? := signs.indentation?.map fun indentation => level - 1 + indentation
  let gap ← blockGapFrom margin? (max level 1) [] place.mark place.rest
  blockLinesFrom folding signs.chomping .none gap (place.rest.length + 1)

end Yaml

end Medals
