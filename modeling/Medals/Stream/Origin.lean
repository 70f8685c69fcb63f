import Medals.Csv.Reader

/-!
# Origins of rows

Rows come from memory or from a reader of delimited text, one at a time. An origin knows how much is
left, and each row it yields makes that less.
-/

namespace Medals

/-- Where rows come from. -/
inductive Origin where
  /-- Rows in memory that are expected to be laid out by the names. -/
  | memory (layout : List String) (pending : List Row)
  | text (reader : RowReader)
deriving Inhabited

theorem RowReader.next_remaining_lt {reader after : RowReader} {row : Row}
    (pulled : reader.next = (.ok (some row), after)) :
    after.cursor.remaining < reader.cursor.remaining := by
  fun_induction RowReader.next reader with
  | case1 => simp at pulled
  | case2 => simp at pulled
  | case3 => simp at pulled
  | case4 reader notDone noLimit record cursor found after' wellFormed row' =>
    simp only [Prod.mk.injEq] at pulled
    rw [← pulled.2]
    exact Csv.Cursor.next_remaining_lt found
  | case5 reader notDone noLimit record cursor found after' fault defect after'' skip ih =>
    exact Nat.lt_trans (ih pulled) (Csv.Cursor.next_remaining_lt found)
  | case6 => simp at pulled
  | case7 reader notDone noLimit record cursor found after' fault defect after'' pad row' =>
    simp only [Prod.mk.injEq] at pulled
    rw [← pulled.2]
    exact Csv.Cursor.next_remaining_lt found

namespace Origin

/-- The layout of the rows. -/
def names : Origin → List String
  | memory layout _ => layout
  | text reader => reader.names

/-- The schema observed so far, if one is tracked. -/
def schema? : Origin → Option Schema
  | memory _ _ => none
  | text reader => some reader.schema

/-- How much is left: rows in memory, or bytes of text. -/
def remaining : Origin → Nat
  | memory _ pending => pending.length
  | text reader => reader.cursor.remaining

/-- Pull the next row. A row in memory of another layout is a fault. -/
def next : Origin → Except Fault (Option Row) × Origin
  | memory layout [] => (.ok none, memory layout [])
  | memory layout (row :: rest) =>
    if row.names = layout then (.ok (some row), memory layout rest)
    else (.error (.foreignLayout row.names layout), memory layout rest)
  | text reader =>
    match reader.next with
    | (pulled, reader) => (pulled, text reader)

theorem next_remaining_lt {origin after : Origin} {row : Row}
    (pulled : origin.next = (.ok (some row), after)) : after.remaining < origin.remaining := by
  match origin with
  | .memory layout [] => simp [next] at pulled
  | .memory layout (first :: rest) =>
    simp only [next] at pulled
    split at pulled
    · rw [← (Prod.mk.inj pulled).2]
      simp [remaining]
    · simp at pulled
  | .text reader =>
    simp only [next] at pulled
    rw [← (Prod.mk.inj pulled).2]
    exact RowReader.next_remaining_lt (Prod.ext (Prod.mk.inj pulled).1 rfl)

end Origin

end Medals
