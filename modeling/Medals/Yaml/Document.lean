import Medals.Yaml.Node
import Medals.Yaml.Tokens

/-!
# Reading YAML documents

The tokens of a text are put together to the document that they make up. A text holds one document
at most; one without any stands for an empty mapping. Nodes may be nested 128 deep.
-/

namespace Medals

namespace Yaml

/-- What is known while tokens are put together. -/
structure Reading where
  /-- The tokens that are left. -/
  tokens : List Token
  /-- The names of anchors, each with its number. -/
  anchors : List (String × Nat)
  /-- What tag handles stand for. -/
  handles : List (String × TagText)
deriving Repr

/-- A step of putting tokens together, which fails on tokens out of place. -/
abbrev Assembly := StateT Reading Option

namespace Assembly

/-- The next token. -/
def next? : Assembly (Option Token) := do
  return (← get).tokens.head?

/-- Pass over the next token. -/
def skip : Assembly Unit :=
  modify fun reading => { reading with tokens := reading.tokens.drop 1 }

/-- Pass over a token, which has to be the next one. -/
def expect (token : Token) : Assembly Unit := do
  if (← next?) = some token then skip else failure

/-- Number an anchor. The number is how many other names there are already, so that the anchor after
a name that comes again shares its number. -/
def register (name : String) : Assembly Nat := do
  let anchors := (← get).anchors
  modify fun reading =>
    { reading with
      anchors := (name, anchors.length) :: anchors.filter fun entry => entry.1 != name }
  return anchors.length

/-- The number of the anchor with a name. -/
def anchorNumber (name : String) : Assembly Nat := do
  match (← get).anchors.find? fun entry => entry.1 == name with
  | some (_, number) => return number
  | none => failure

/-- An anchor, if one comes next. -/
def anchorName? : Assembly (Option String) := do
  match ← next? with
  | some (.anchor name) =>
    skip
    return some name
  | _ => return none

/-- A tag, if one comes next, with what its handle stands for. -/
def tag? : Assembly (Option (String × TagText)) := do
  match ← next? with
  | some (.tag handle suffix) =>
    skip
    return some (handle, suffix)
  | _ => return none

/-- A tag in full; its handle has to be known. -/
def fullTag (tag? : Option (String × TagText)) : Assembly (Option TagText) := do
  match tag? with
  | none => return none
  | some ("", suffix) => return some suffix
  | some (handle, suffix) =>
    match (← get).handles.find? fun entry => entry.1 == handle with
    | some (_, meaning) => return some (meaning ++ suffix)
    | none => failure

/-- The tag of a scalar; the one of a single exclamation mark says nothing of it. -/
def scalarTag? (tag? : Option TagText) : Option TagText :=
  tag?.filter (· != [0x21])

/-- The items of a flow sequence behind its opening bracket. A key among them makes a mapping of a
single entry. -/
def flowItems (read : Assembly Node) (first : Bool) (items : List Node) :
    Nat → Assembly (List Node)
  | 0 => failure
  | fuel + 1 => do
    match ← next? with
    | some .flowSequenceEnd =>
      skip
      return items.reverse
    | token? =>
      if !first then expect .flowEntry
      match ← (if first then pure token? else next?) with
      | some .flowSequenceEnd =>
        skip
        return items.reverse
      | some .key =>
        skip
        let key ← match ← next? with
          | some .value | some .flowEntry | some .flowSequenceEnd => pure Node.empty
          | _ => read
        let value ← match ← next? with
          | some .value =>
            skip
            match ← next? with
            | some .flowEntry | some .flowSequenceEnd => pure Node.empty
            | _ => read
          | _ => pure Node.empty
        flowItems read false (.mapping .none [(key, value)] :: items) fuel
      | _ =>
        let item ← read
        flowItems read false (item :: items) fuel

/-- The entries of a flow mapping behind its opening brace. Keys and values may be missing. -/
def flowEntries (read : Assembly Node) (first : Bool) (entries : List (Node × Node)) :
    Nat → Assembly (List (Node × Node))
  | 0 => failure
  | fuel + 1 => do
    match ← next? with
    | some .flowMappingEnd =>
      skip
      return entries.reverse
    | token? =>
      if !first then expect .flowEntry
      match ← (if first then pure token? else next?) with
      | some .flowMappingEnd =>
        skip
        return entries.reverse
      | some .key =>
        skip
        let key ← match ← next? with
          | some .value | some .flowEntry | some .flowMappingEnd => pure Node.empty
          | _ => read
        let value ← match ← next? with
          | some .value =>
            skip
            match ← next? with
            | some .flowEntry | some .flowMappingEnd => pure Node.empty
            | _ => read
          | _ => pure Node.empty
        flowEntries read false ((key, value) :: entries) fuel
      | _ =>
        let key ← read
        flowEntries read false ((key, .empty) :: entries) fuel

/-- The items of a block sequence, up to its end. -/
def blockItems (read : Assembly Node) (items : List Node) : Nat → Assembly (List Node)
  | 0 => failure
  | fuel + 1 => do
    match ← next? with
    | some .blockEntry =>
      skip
      let item ← match ← next? with
        | some .blockEntry | some .blockEnd => pure Node.empty
        | _ => read
      blockItems read (item :: items) fuel
    | some .blockEnd =>
      skip
      return items.reverse
    | _ => failure

/-- The items of a sequence that is the value of a key and not indented more than that. Any other
token ends it. -/
def flushItems (read : Assembly Node) (items : List Node) : Nat → Assembly (List Node)
  | 0 => failure
  | fuel + 1 => do
    match ← next? with
    | some .blockEntry =>
      skip
      let item ← match ← next? with
        | some .blockEntry | some .key | some .value | some .blockEnd => pure Node.empty
        | _ => read
      flushItems read (item :: items) fuel
    | _ => return items.reverse

/-- The entries of a block mapping, up to its end. -/
def blockEntries (read : Assembly Node) (entries : List (Node × Node)) :
    Nat → Assembly (List (Node × Node))
  | 0 => failure
  | fuel + 1 => do
    let part : Assembly Node := do
      match ← next? with
      | some .key | some .value | some .blockEnd => return .empty
      | _ => read
    match ← next? with
    | some .key =>
      skip
      let key ← part
      let value ← match ← next? with
        | some .value =>
          skip
          part
        | _ => pure Node.empty
      blockEntries read ((key, value) :: entries) fuel
    | some .blockEnd =>
      skip
      return entries.reverse
    | _ => failure

/-- A node. Collections that are told by indentation may not stand in flows (`block`), and a
sequence that is not indented only where a key or value is expected (`flush`). The fuel bounds the loops. -/
def node (fuel : Nat) : (depth : Nat) → (block flush : Bool) → Assembly Node
  | 0, _, _ => failure
  | depth + 1, block, flush => do
    match ← next? with
    | some (.reference name) =>
      skip
      return .reference (← anchorNumber name)
    | _ =>
      let before? ← anchorName?
      let written? ← tag?
      let name? ← match before? with
        | some name => pure (some name)
        | none => anchorName?
      let tag? ← fullTag written?
      let anchor? ← name?.mapM register
      let properties : Properties := ⟨anchor?, tag?⟩
      match ← next? with
      | some (.scalar style text) =>
        skip
        return .scalar { properties with tag? := scalarTag? tag? } style text
      | some .flowSequence =>
        skip
        return .sequence properties (← flowItems (node fuel depth false false) true [] fuel)
      | some .flowMapping =>
        skip
        return .mapping properties (← flowEntries (node fuel depth false false) true [] fuel)
      | token? =>
        if flush && token? == some .blockEntry then
          return .sequence properties (← flushItems (node fuel depth true false) [] fuel)
        else if block && token? == some .blockSequence then
          skip
          return .sequence properties (← blockItems (node fuel depth true false) [] fuel)
        else if block && token? == some .blockMapping then
          skip
          return .mapping properties (← blockEntries (node fuel depth true true) [] fuel)
        else if name?.isSome || tag?.isSome then return .scalar properties .plain ""
        else failure

/-- The handles that need no directive. -/
def standardHandles : List (String × TagText) :=
  [("!", [0x21]), ("!!", standardTag "")]

/-- The directives of a document. There may be one for the version, which is 1.1 or 1.2, and one for
each handle. -/
def directives (versioned : Bool) : Nat → Assembly Unit
  | 0 => failure
  | fuel + 1 => do
    match ← next? with
    | some (.version major minor) =>
      if versioned || major != 1 || (minor != 1 && minor != 2) then failure
      skip
      directives true fuel
    | some (.tagHandle handle meaning) =>
      if (← get).handles.any fun entry => entry.1 == handle then failure
      skip
      modify fun reading => { reading with handles := reading.handles ++ [(handle, meaning)] }
      directives versioned fuel
    | _ => return ()

/-- The root of a document behind its mark; it may be missing. -/
def rootBehindMark (fuel depth : Nat) : Assembly Node := do
  match ← next? with
  | none | some (.version _ _) | some (.tagHandle _ _) | some .documentStart | some .documentEnd =>
    return .empty
  | _ => node fuel depth true false

/-- The document of a text. Behind it there is nothing but marks of its end. -/
def document (fuel depth : Nat) : Assembly Document := do
  let root ← match ← next? with
    | none => pure Node.empty
    | some (.version _ _) | some (.tagHandle _ _) | some .documentStart => do
      directives false fuel
      modify fun reading =>
        { reading with
          handles := reading.handles ++ standardHandles.filter fun entry =>
            !reading.handles.any fun known => known.1 == entry.1 }
      expect .documentStart
      rootBehindMark fuel depth
    | _ => do
      modify fun reading => { reading with handles := standardHandles }
      node fuel depth true false
  modify fun reading => { reading with tokens := reading.tokens.dropWhile (· == .documentEnd) }
  if (← next?).isSome then failure
  return .ofRoot root

end Assembly

/-- The document that a text holds. -/
def parse? (text : String) : Option Document := do
  let tokens ← tokens? text
  return (← (Assembly.document (tokens.length + 1) 128).run ⟨tokens, [], []⟩).1

end Yaml

end Medals
