import Medals.Yaml.ScalarText
import Medals.Yaml.Tag

/-!
# The tokens of a text

A text is cut into tokens from its beginning to its end. A key without a mark of its own is told by
the colon behind it, so that its marks are put before tokens that are there already; it has to stand
on one line with its colon and at most 1024 characters before it.
-/

namespace Medals

namespace Yaml

/-- Where a key may have begun. -/
structure KeyStart where
  /-- Nothing but a key may stand here. -/
  required : Bool
  /-- How many tokens come before. -/
  position : Nat
  mark : Mark
deriving Repr

namespace KeyStart

/-- A colon at the mark may still belong to the key. -/
def reaches (key : KeyStart) (mark : Mark) : Bool :=
  key.mark.line == mark.line && mark.index ≤ key.mark.index + 1024

end KeyStart

/-- What is known of a text up to a place. -/
structure Scan where
  place : Place
  /-- The last token comes first. -/
  tokens : List Token
  /-- How many tokens there are. -/
  count : Nat
  /-- The least column of what stands inside the innermost collection that is told by indentation,
  which is one more than its own column; zero outside of all of them. -/
  level : Nat
  /-- The levels of the collections around it. -/
  outer : List Nat
  /-- Where a key of the innermost flow, or outside of flows, may have begun. -/
  key? : Option KeyStart
  /-- The same for the flows around it, and last for what is outside of them. -/
  outerKeys : List (Option KeyStart)
  /-- A key may begin here. -/
  keyAllowed : Bool
deriving Repr

namespace Scan

def start (chars : List Char) : Scan :=
  ⟨⟨.start, chars⟩, [], 0, 0, [], none, [], true⟩

/-- The place is inside of a flow. -/
def inFlow (scan : Scan) : Bool :=
  !scan.outerKeys.isEmpty

/-- Add a token. -/
def push (scan : Scan) (token : Token) : Scan :=
  { scan with tokens := token :: scan.tokens, count := scan.count + 1 }

/-- Put a token before those that come after a position. -/
def insert (scan : Scan) (position : Nat) (token : Token) : Scan :=
  let (later, earlier) := scan.tokens.splitAt (scan.count - position)
  { scan with tokens := later ++ token :: earlier, count := scan.count + 1 }

/-- Go on behind some characters. -/
def advance (scan : Scan) (count : Nat) : Scan :=
  { scan with place := scan.place.advance count }

/-- Go on behind some characters that are a token. -/
def take (scan : Scan) (count : Nat) (token : Token) : Scan :=
  (scan.advance count).push token

/-- Give up the key that may have begun, unless it is required. -/
def dropKey? (scan : Scan) : Option Scan :=
  if scan.key?.any KeyStart.required then none else some { scan with key? := none }

/-- Remember that a key may begin here. -/
def saveKey? (scan : Scan) : Option Scan :=
  if scan.keyAllowed then do
    let scan ← scan.dropKey?
    let required := !scan.inFlow && scan.level == scan.place.mark.column + 1
    return { scan with key? := some ⟨required, scan.count, scan.place.mark⟩ }
  else some scan

/-- Begin a collection in a column, unless one has begun there already. -/
def indent (scan : Scan) (column position : Nat) (token : Token) : Scan :=
  if scan.inFlow || column + 1 ≤ scan.level then scan
  else { scan.insert position token with level := column + 1, outer := scan.level :: scan.outer }

/-- End the collections of the given levels as long as they are above a level. -/
def unindentFrom (scan : Scan) (least : Nat) : List Nat → Scan
  | [] => scan
  | level :: outer =>
    if least < scan.level then
      unindentFrom { scan.push .blockEnd with level, outer } least outer
    else scan

/-- End the collections that are indented by more than a level allows. -/
def unindent (scan : Scan) (least : Nat) : Scan :=
  if scan.inFlow then scan else scan.unindentFrom least scan.outer

/-- Go on to the next token, over blanks, breaks, comments and byte order marks at the beginning of
lines. Tabs may stand in flows, and elsewhere only where no key can begin. -/
def toTokenFrom (flow : Bool) (keyAllowed comment : Bool) (mark : Mark) : List Char → Bool × Place
  | [] => (keyAllowed, ⟨mark, []⟩)
  | c :: rest =>
    if isBreak c then toTokenFrom flow (keyAllowed || !flow) false (mark.after c) rest
    else if comment || c == ' ' || (c == '\t' && (flow || !keyAllowed)) ||
        (c == '\ufeff' && mark.column == 0) then
      toTokenFrom flow keyAllowed comment (mark.after c) rest
    else if c = '#' then toTokenFrom flow keyAllowed true (mark.after c) rest
    else (keyAllowed, ⟨mark, c :: rest⟩)

/-- Go on to the next token, and end the collections that do not reach as far. -/
def toToken (scan : Scan) : Scan :=
  let (keyAllowed, place) :=
    toTokenFrom scan.inFlow scan.keyAllowed false scan.place.mark scan.place.rest
  { scan with place, keyAllowed }.unindent (place.mark.column + 1)

/-- What stands between documents ends all collections. -/
def betweenDocuments? (scan : Scan) : Option Scan := do
  let scan ← (scan.unindent 0).dropKey?
  return { scan with keyAllowed := false }

/-- A directive. -/
def directive? (scan : Scan) : Option Scan := do
  let scan ← scan.betweenDocuments?
  let (token, place) ← Yaml.directive? (scan.place.advance 1)
  return { scan with place }.push token

/-- The beginning of a flow, which may be a key. -/
def openFlow? (scan : Scan) (token : Token) : Option Scan := do
  let scan ← scan.saveKey?
  let inside := { scan with
    key? := none
    outerKeys := scan.key? :: scan.outerKeys
    keyAllowed := true }
  return inside.take 1 token

/-- The end of a flow. -/
def closeFlow? (scan : Scan) (token : Token) : Option Scan := do
  let scan ← scan.dropKey?
  let scan := match scan.outerKeys with
    | key? :: outerKeys => { scan with key?, outerKeys }
    | [] => scan
  return { scan with keyAllowed := false }.take 1 token

/-- A comma between the items of a flow. -/
def flowEntry? (scan : Scan) : Option Scan := do
  let scan ← scan.dropKey?
  return { scan with keyAllowed := true }.take 1 .flowEntry

/-- The dash of an item. Outside of flows it has to stand where a key could. -/
def blockEntry? (scan : Scan) : Option Scan := do
  if !scan.inFlow && !scan.keyAllowed then none
  let scan ← (scan.indent scan.place.mark.column scan.count .blockSequence).dropKey?
  return { scan with keyAllowed := true }.take 1 .blockEntry

/-- The mark of a key. -/
def keyMark? (scan : Scan) : Option Scan := do
  if !scan.inFlow && !scan.keyAllowed then none
  let scan ← (scan.indent scan.place.mark.column scan.count .blockMapping).dropKey?
  return { scan with keyAllowed := !scan.inFlow }.take 1 .key

/-- The colon of a value. If a key without a mark precedes it, that is marked now. -/
def valueMark? (scan : Scan) : Option Scan :=
  let bare? : Option Scan :=
    if !scan.inFlow && !scan.keyAllowed then none
    else
      some { scan.indent scan.place.mark.column scan.count .blockMapping with
        keyAllowed := !scan.inFlow }
  let marked? : Option Scan := match scan.key? with
    | some key =>
      if key.reaches scan.place.mark then
        let marked := scan.insert key.position .key
        some { marked.indent key.mark.column key.position .blockMapping with
          key? := none
          keyAllowed := false }
      else if key.required then none
      else bare?
    | none => bare?
  marked?.map fun scan => scan.take 1 .value

/-- A token that may be a key or a part of it. -/
def keyPart? (scan : Scan) (token? : Option (Token × Place)) : Option Scan := do
  let scan ← scan.saveKey?
  let (token, place) ← token?
  return { scan with place, keyAllowed := false }.push token

/-- A scalar between quotes. -/
def quoted? (scan : Scan) (style : Style) (read : Place → Option (List Char × Place)) :
    Option Scan :=
  scan.keyPart? ((read (scan.place.advance 1)).map fun (text, place) =>
    (.scalar style (String.ofList text), place))

/-- A block scalar; a key may follow it. -/
def block? (scan : Scan) (style : Style) : Option Scan := do
  let scan ← scan.dropKey?
  let (text, place) ← blockText? (style == .folded) scan.level (scan.place.advance 1)
  return { scan with place, keyAllowed := true }.push (.scalar style (String.ofList text))

/-- A plain scalar; a key may follow it on a line of its own. -/
def plain? (scan : Scan) : Option Scan := do
  let scan ← scan.saveKey?
  let plain ← plainFrom scan.inFlow scan.level [] .none scan.place.mark scan.place.rest
  return { scan with place := plain.place, keyAllowed := plain.broken }.push
    (.scalar .plain (String.ofList plain.text))

/-- A plain scalar can begin here. -/
def startsPlain (flow : Bool) (chars : List Char) : Bool :=
  match chars with
  | [] => false
  | c :: rest =>
    if c = '-' then !rest.head?.any isBlank
    else if c = '?' ∨ c = ':' then !flow && !blankFollows rest
    else !(blankFollows chars || isFlowMark c ||
      ['#', '&', '*', '!', '|', '>', '\'', '"', '%', '@', '\x60'].contains c)

/-- The next token, which begins at this place with the given character. -/
def token? (scan : Scan) (c : Char) (rest : List Char) : Option Scan :=
  let lineStart := scan.place.mark.column == 0
  let flow := scan.inFlow
  if lineStart && c == '%' then scan.directive?
  else if lineStart && documentMarkFollows (c :: rest) then
    scan.betweenDocuments?.map fun scan =>
      scan.take 3 (if c = '-' then .documentStart else .documentEnd)
  else if c = '[' then scan.openFlow? .flowSequence
  else if c = '\x7b' then scan.openFlow? .flowMapping
  else if c = ']' then scan.closeFlow? .flowSequenceEnd
  else if c = '\x7d' then scan.closeFlow? .flowMappingEnd
  else if c = ',' then scan.flowEntry?
  else if c == '-' && blankFollows rest then scan.blockEntry?
  else if c == '?' && (flow || blankFollows rest) then scan.keyMark?
  else if c == ':' && (flow || blankFollows rest) then scan.valueMark?
  else if c = '*' then
    scan.keyPart? ((anchorName? (scan.place.advance 1)).map fun (name, place) =>
      (.reference name, place))
  else if c = '&' then
    scan.keyPart? ((anchorName? (scan.place.advance 1)).map fun (name, place) =>
      (.anchor name, place))
  else if c = '!' then scan.keyPart? (tag? flow scan.place)
  else if c == '|' && !flow then scan.block? .literal
  else if c == '>' && !flow then scan.block? .folded
  else if c = '\'' then
    scan.quoted? .singleQuoted fun place => singleQuotedFrom [] .none place.mark place.rest
  else if c = '"' then
    scan.quoted? .doubleQuoted fun place => doubleQuotedFrom [] .none place (place.rest.length + 1)
  else if startsPlain flow (c :: rest) then scan.plain?
  else none

/-- The tokens up to the end. The fuel is the length of what is left. -/
def finish? (scan : Scan) : Nat → Option (List Token)
  | 0 => none
  | fuel + 1 =>
    let scan := scan.toToken
    match scan.place.rest with
    | [] => scan.betweenDocuments?.map fun scan => scan.tokens.reverse
    | c :: rest =>
      match scan.token? c rest with
      | some scan => finish? scan fuel
      | none => none

end Scan

/-- The tokens of a text. -/
def tokens? (text : String) : Option (List Token) :=
  let chars := text.toList
  if chars.all isAllowed then
    let chars := withLineFeeds chars
    (Scan.start chars).finish? (chars.length + 1)
  else none

end Yaml

end Medals
