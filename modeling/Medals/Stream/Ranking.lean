import Medals.Cell.Order

/-!
# Rankings of bounded size

A ranking keeps the best items pushed into it, at most as many as its capacity, and forgets the
others. Items with equal keys rank in the order of their arrival.
-/

namespace Medals

/-- An item with the cell it is ranked by. -/
structure Ranked (α : Type) where
  key : Cell
  item : α
deriving Repr

/-- The best items so far. -/
structure Ranking (α : Type) where
  capacity : Nat
  descending : Bool
  /-- Best first. -/
  entries : List (Ranked α)
  /-- How many items were pushed, forgotten ones included. -/
  seen : Nat
deriving Repr

namespace Ranking

variable {α : Type}

def start (capacity : Nat) (descending : Bool) : Ranking α :=
  ⟨capacity, descending, [], 0⟩

/-- Put a late arrival behind all entries that do not rank after it. -/
def insertLast (descending : Bool) (entry : Ranked α) : List (Ranked α) → List (Ranked α)
  | [] => [entry]
  | first :: rest =>
    if Cell.orderMissingLast descending first.key entry.key = .gt then entry :: first :: rest
    else first :: insertLast descending entry rest

/-- The entry does not rank before the last of a full ranking. -/
def outranked (descending : Bool) (entry : Ranked α) (entries : List (Ranked α)) : Bool :=
  match entries.getLast? with
  | some worst => Cell.orderMissingLast descending entry.key worst.key != .lt
  | none => false

/-- Push an item. A ranking without capacity takes no notice; a full one refuses an item that does
not rank before its last entry, and otherwise forgets that entry. -/
def push (ranking : Ranking α) (key : Cell) (item : α) : Ranking α :=
  if ranking.capacity = 0 then ranking
  else if ranking.entries.length < ranking.capacity then
    { ranking with
      entries := insertLast ranking.descending ⟨key, item⟩ ranking.entries
      seen := ranking.seen + 1 }
  else if outranked ranking.descending ⟨key, item⟩ ranking.entries then
    { ranking with seen := ranking.seen + 1 }
  else
    { ranking with
      entries := (insertLast ranking.descending ⟨key, item⟩ ranking.entries).dropLast
      seen := ranking.seen + 1 }

def size (ranking : Ranking α) : Nat :=
  ranking.entries.length

def isEmpty (ranking : Ranking α) : Bool :=
  ranking.entries.isEmpty

/-- The items, best first. -/
def best (ranking : Ranking α) : List α :=
  ranking.entries.map Ranked.item

end Ranking

end Medals
