/-!
# Characters of YAML documents

The classes of characters that the marks of a document are told by.
-/

namespace Medals

namespace Yaml

/-- A line break. -/
def isBreak (c : Char) : Bool :=
  c == '\n' || c == '\r' || c == '\u0085' || c == '\u2028' || c == '\u2029'

/-- A space or a tab. -/
def isBlank (c : Char) : Bool :=
  c == ' ' || c == '\t'

/-- A character of the names of anchors, directives and tag handles. -/
def isNameChar (c : Char) : Bool :=
  ('a' ≤ c && c ≤ 'z') || ('A' ≤ c && c ≤ 'Z') || ('0' ≤ c && c ≤ '9') || c == '_' || c == '-'

/-- A character that separates or ends the items of a flow. -/
def isFlowMark (c : Char) : Bool :=
  c == ',' || c == '[' || c == ']' || c == '\x7b' || c == '\x7d'

/-- The character may stand in a document. -/
def isAllowed (c : Char) : Bool :=
  let code := c.toNat
  code == 0x09 || code == 0x0a || code == 0x0d || (0x20 ≤ code && code ≤ 0x7e) || code == 0x85 ||
    (0xa0 ≤ code && code ≤ 0xfffd) || 0x10000 ≤ code

/-- The character stands for itself in every style. -/
def isPrintable (c : Char) : Bool :=
  let code := c.toNat
  code == 0x0a || (0x20 ≤ code && code ≤ 0x7e) || (0xa0 ≤ code && code ≤ 0xd7ff) ||
    (0xe000 ≤ code && code ≤ 0xfffd && code != 0xfeff) || 0x10000 ≤ code

/-- A blank, a line break or the end comes next. -/
def blankFollows (rest : List Char) : Bool :=
  match rest with
  | [] => true
  | c :: _ => isBlank c || isBreak c

/-- The mark of the beginning or the end of a document comes next, if a line begins here. -/
def documentMarkFollows (chars : List Char) : Bool :=
  match chars with
  | '-' :: '-' :: '-' :: rest => blankFollows rest
  | '.' :: '.' :: '.' :: rest => blankFollows rest
  | _ => false

/-- Line breaks as line feeds, but for the two breaks that scalars keep: those of lines and of
paragraphs in Unicode. -/
def withLineFeedsFrom (done : List Char) : List Char → List Char
  | [] => done.reverse
  | '\r' :: '\n' :: rest => withLineFeedsFrom ('\n' :: done) rest
  | c :: rest => withLineFeedsFrom ((if c = '\r' ∨ c = '\u0085' then '\n' else c) :: done) rest

/-- A text with line feeds for line breaks. -/
def withLineFeeds (chars : List Char) : List Char :=
  withLineFeedsFrom [] chars

end Yaml

end Medals
