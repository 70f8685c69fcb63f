import Medals.Yaml.Token

/-!
# Nodes of YAML documents

A document is a tree of scalars, sequences and mappings. A node may have an anchor, and a reference
to the anchor stands for the node elsewhere.
-/

namespace Medals

namespace Yaml

/-- What is said of a node before its content. Anchors are numbered. -/
structure Properties where
  anchor? : Option Nat
  tag? : Option TagText
deriving DecidableEq, Repr, Inhabited

/-- The tag of a kind that all documents know. -/
def standardTag (kind : String) : TagText :=
  ("tag:yaml.org,2002:" ++ kind).toUTF8.toList

/-- Nothing is said of a node. -/
def Properties.none : Properties := ⟨.none, .none⟩

/-- A node. -/
inductive Node where
  | reference (anchor : Nat)
  | scalar (properties : Properties) (style : Style) (text : String)
  | sequence (properties : Properties) (items : List Node)
  | mapping (properties : Properties) (entries : List (Node × Node))
deriving Repr, Inhabited

namespace Node

/-- The scalar that is not written. -/
def empty : Node := .scalar .none .plain ""

/-- Add a node to those found if it has an anchor. -/
def noteAnchor (node : Node) (anchor? : Option Nat) (found : List (Nat × Node)) :
    List (Nat × Node) :=
  match anchor? with
  | some anchor => (anchor, node) :: found
  | .none => found

mutual

/-- The nodes with anchors in a node, the last one first, before those found already. -/
def anchored (found : List (Nat × Node)) : Node → List (Nat × Node)
  | reference _ => found
  | scalar properties style text =>
    noteAnchor (.scalar properties style text) properties.anchor? found
  | sequence properties items =>
    anchoredItems (noteAnchor (.sequence properties items) properties.anchor? found) items
  | mapping properties entries =>
    anchoredEntries (noteAnchor (.mapping properties entries) properties.anchor? found) entries

def anchoredItems (found : List (Nat × Node)) : List Node → List (Nat × Node)
  | [] => found
  | item :: rest => anchoredItems (anchored found item) rest

def anchoredEntries (found : List (Nat × Node)) : List (Node × Node) → List (Nat × Node)
  | [] => found
  | (key, value) :: rest => anchoredEntries (anchored (anchored found key) value) rest

end

end Node

/-- A document: its root, and its nodes with anchors, of which the last one with a number counts and
comes first. -/
structure Document where
  root : Node
  anchored : List (Nat × Node)
deriving Repr, Inhabited

namespace Document

/-- The document with a root. -/
def ofRoot (root : Node) : Document :=
  ⟨root, root.anchored []⟩

/-- The node that a node stands for. -/
def resolve (document : Document) : Node → Node
  | .reference anchor =>
    ((document.anchored.find? fun entry => entry.1 == anchor).map Prod.snd).getD .empty
  | node => node

end Document

end Yaml

end Medals
