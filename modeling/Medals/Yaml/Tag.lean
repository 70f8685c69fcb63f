import Medals.Yaml.Plain
import Medals.Yaml.Token

/-!
# Tags, anchors and directives

What stands behind the marks `!`, `&`, `*` and `%`.
-/

namespace Medals

namespace Yaml

/-- A character that may stand in a tag as it is. Brackets and commas may do so only in a tag that
is given in full. -/
def isTagChar (full : Bool) (c : Char) : Bool :=
  isNameChar c ||
    [';', '/', '?', ':', '@', '&', '=', '+', '$', '.', '!', '~', '*', '\'', '(', ')'].contains c ||
    (full && [',', '[', ']'].contains c)

/-- A byte written as a percent sign and two hexadecimal digits. -/
def percentByte? (chars : List Char) : Option UInt8 :=
  match chars with
  | '%' :: high :: low :: _ => (naturalInBase? 16 [high, low]).map UInt8.ofNat
  | _ => none

/-- How many bytes of a character its first byte announces. -/
def announcedBytes? (first : UInt8) : Option Nat :=
  if first < 0x80 then some 1
  else if 0xc0 ≤ first ∧ first < 0xe0 then some 2
  else if 0xe0 ≤ first ∧ first < 0xf0 then some 3
  else if 0xf0 ≤ first ∧ first < 0xf8 then some 4
  else none

/-- The bytes of a character that is written with percent signs. -/
def percentBytes? (chars : List Char) : Option (List UInt8) := do
  let first ← percentByte? chars
  let later ← (List.range ((← announcedBytes? first) - 1)).mapM fun index =>
    (percentByte? (chars.drop (3 * (index + 1)))).filter fun byte => 0x80 ≤ byte && byte < 0xc0
  return first :: later

/-- The longest run of tag characters, last byte first. The fuel is the length of what is left. -/
def tagTextFrom (full : Bool) (text : TagText) (place : Place) : Nat → Option (TagText × Place)
  | 0 => none
  | fuel + 1 =>
    match place.next? with
    | some c =>
      if c = '%' then
        match percentBytes? place.rest with
        | some bytes =>
          tagTextFrom full (bytes.reverse ++ text) (place.advance (3 * bytes.length)) fuel
        | none => none
      else if isTagChar full c then
        tagTextFrom full (UInt8.ofNat c.toNat :: text) (place.advance 1) fuel
      else some (text, place)
    | none => some (text, place)

/-- The text of a tag or a part of it. It ends before the first NUL that it holds. -/
def tagText? (full : Bool) (place : Place) : Option (TagText × Place) :=
  (tagTextFrom full [] place (place.rest.length + 1)).map fun (text, behind) =>
    (text.reverse.takeWhile (· != 0), behind)

/-- A tag text of at least one character. -/
def someTagText? (full : Bool) (place : Place) : Option (TagText × Place) :=
  (tagText? full place).filter fun (_, behind) => place.mark.index < behind.mark.index

/-- A handle: a name between exclamation marks, of which the second may be missing. -/
def tagHandle? (place : Place) : Option (String × Place) :=
  if place.next? = some '!' then
    let (name, behind) := (place.advance 1).span isNameChar
    if behind.next? = some '!' then
      some (String.ofList ('!' :: (name ++ ['!'])), behind.advance 1)
    else some (String.ofList ('!' :: name), behind)
  else none

/-- A tag, from its mark on. It is given in full between angle brackets, or begins with a handle;
the handle of a single exclamation mark needs no suffix. -/
def tagToken? (place : Place) : Option (Token × Place) :=
  match place.rest with
  | '!' :: '<' :: _ => do
    let (text, behind) ← someTagText? true (place.advance 2)
    if behind.next? = some '>' then some (.tag "" text, behind.advance 1) else none
  | _ => do
    let (handle, behind) ← tagHandle? place
    if 1 < handle.length ∧ handle.endsWith "!" then
      let (suffix, behind) ← someTagText? false behind
      some (.tag handle suffix, behind)
    else
      let (suffix, behind) ← tagText? false (place.advance 1)
      if suffix = [] then some (.tag "" [0x21], behind) else some (.tag "!" suffix, behind)

/-- A tag, which a blank, a break or the comma of a flow has to follow. -/
def tag? (flow : Bool) (place : Place) : Option (Token × Place) :=
  (tagToken? place).filter fun (_, behind) =>
    blankFollows behind.rest || (flow && behind.next? == some ',')

/-- The name of an anchor or of a reference to one, after its mark. -/
def anchorName? (place : Place) : Option (String × Place) :=
  let (name, behind) := place.span isNameChar
  let ends := blankFollows behind.rest ||
    behind.next?.any fun c => ['?', ':', ',', ']', '\x7d', '%', '@', '\x60'].contains c
  if name ≠ [] ∧ ends then some (String.ofList name, behind) else none

/-- A number in a directive, of at most nine digits. -/
def versionNumber? (place : Place) : Option (Nat × Place) :=
  let (digits, behind) := place.span Numeral.isDigit
  if digits ≠ [] ∧ digits.length ≤ 9 then some (Numeral.digitsValue digits, behind) else none

/-- What a directive for the version says. -/
def version? (place : Place) : Option (Token × Place) := do
  let (major, behind) ← versionNumber? (place.skip isBlank)
  if behind.next? = some '.' then
    let (minor, behind) ← versionNumber? (behind.advance 1)
    some (.version major minor, behind)
  else none

/-- What a directive for a tag handle says. -/
def handleMeaning? (place : Place) : Option (Token × Place) := do
  let (handle, behind) ← tagHandle? (place.skip isBlank)
  if handle.endsWith "!" ∧ behind.next?.any isBlank then
    let (meaning, behind) ← someTagText? true (behind.skip isBlank)
    if blankFollows behind.rest then some (.tagHandle handle meaning, behind) else none
  else none

/-- A directive after its mark, and the next line. -/
def directive? (place : Place) : Option (Token × Place) := do
  let (name, behind) := place.span isNameChar
  if !blankFollows behind.rest then none
  let (token, behind) ←
    if name = "YAML".toList then version? behind
    else if name = "TAG".toList then handleMeaning? behind
    else none
  return (token, ← behind.nextLine?)

end Yaml

end Medals
