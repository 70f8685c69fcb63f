import Medals.Yaml.Place

/-!
# Tokens of YAML documents

The marks and scalars that a document consists of. Collections that are told by indentation have
tokens of their own for their beginning and end.
-/

namespace Medals

namespace Yaml

/-- How a scalar is written. -/
inductive Style where
  | plain
  | singleQuoted
  | doubleQuoted
  | literal
  | folded
deriving DecidableEq, Repr, Inhabited

/-- A text of a tag in UTF-8. It ends before the first NUL. -/
abbrev TagText := List UInt8

/-- A token. -/
inductive Token where
  | version (major minor : Nat)
  /-- A handle that tags may begin with, and what it stands for. -/
  | tagHandle (handle : String) (meaning : TagText)
  | documentStart
  | documentEnd
  | blockSequence
  | blockMapping
  | blockEnd
  | flowSequence
  | flowSequenceEnd
  | flowMapping
  | flowMappingEnd
  | blockEntry
  | flowEntry
  | key
  | value
  | reference (name : String)
  | anchor (name : String)
  /-- A tag that is its handle's meaning with a suffix; one without handle is the suffix alone. -/
  | tag (handle : String) (suffix : TagText)
  | scalar (style : Style) (text : String)
deriving DecidableEq, Repr, Inhabited

end Yaml

end Medals
