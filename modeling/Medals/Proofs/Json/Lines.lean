import Medals.Json.Lines
import Medals.Proofs.Json.Rows
import Medals.Proofs.Text.Utf8

/-!
# One line for each row

Every row is written as one line: a line end is always an escape inside a literal, so that the only
byte of a line end is the one behind each row (`JsonLines.writeRows_lossless`). The rows are told
from each other by what is written.
-/

namespace Medals

namespace JsonLines

theorem lines_writeRows (writer : JsonLines) (rows : List Row) :
    (writer.writeRows rows).lines = writer.lines ++ rows.map line := by
  induction rows generalizing writer with
  | nil => exact (List.append_nil _).symm
  | cons row rows ih =>
    rw [writeRows, List.foldl_cons]
    exact (ih _).trans (by simp [writeRow])

theorem newline_notMem_cell (cell : Cell) : '\n' ∉ cell.toJson.compact.toList := by
  cases cell with
  | missing => decide
  | integer value =>
    have regular := (RawNumber.regular_ofInt value.toInt).newline_notMem
    rwa [RawNumber.chars_ofInt] at regular
  | number value =>
    by_cases finite : value.isFinite = true
    · have literal : (Cell.number value).toJson.compact = value.documentText := if_pos finite
      obtain ⟨raw, writes, text⟩ := RawNumber.exists_documentText finite
      rw [literal, ← text]
      exact writes.regular.newline_notMem
    · have literal : (Cell.number value).toJson.compact = "null" := if_neg finite
      rw [literal]
      decide
  | text value =>
    have literal : (Cell.text value).toJson.compact = Json.textLiteral value := rfl
    rw [literal, Json.toList_textLiteral]
    simp [Json.newline_notMem_escaped]

/-- No line end is written inside a row. -/
theorem newline_notMem_compact (row : Row) : '\n' ∉ row.toJson.compact.toList := by
  have members : ∀ entries : List (String × Cell),
      '\n' ∉ (Json.compactMembers (entries.map Json.ofEntry)).toList := by
    intro entries
    induction entries with
    | nil => decide
    | cons entry entries ih =>
      have behind : '\n' ∉
          (RawJson.behindName entry.2.toJson (entries.map Json.ofEntry)).toList := by
        cases entries with
        | nil => exact newline_notMem_cell entry.2
        | cons next entries =>
          simpa [RawJson.behindName, newline_notMem_cell entry.2] using ih
      rw [List.map_cons, Json.ofEntry, RawJson.compactMembers_cons]
      simp [Json.toList_textLiteral, Json.newline_notMem_escaped, behind]
  rw [Row.toJson_eq, Json.compact]
  simp [members]

/-- A line is cut at its end. -/
theorem cut_line {one other more others : List Char} (oneLine : '\n' ∉ one)
    (otherLine : '\n' ∉ other) (same : one ++ '\n' :: more = other ++ '\n' :: others) :
    one = other ∧ more = others := by
  have front : ∀ {chars rest : List Char}, '\n' ∉ chars →
      (chars ++ '\n' :: rest).takeWhile (· ≠ '\n') = chars := by
    intro chars rest noEnd
    rw [List.takeWhile_append_of_pos, List.takeWhile_cons_of_neg (by decide), List.append_nil]
    intro c member
    exact decide_eq_true fun newline => noEnd (newline ▸ member)
  have lines : one = other := by
    rw [← front oneLine, same, front otherLine]
  exact ⟨lines, (List.cons.inj (List.append_cancel_left (lines ▸ same))).2⟩

theorem toList_output (rows : List Row) : (start.writeRows rows).output.toList =
    rows.flatMap fun row => row.toJson.compact.toList ++ ['\n'] := by
  rw [output, lines_writeRows]
  simp [start, line, String.toList_join, List.flatMap_map]

/-- Rows of finite cells are told from each other by what is written. -/
theorem eq_of_output {rows others : List Row}
    (finite : ∀ row ∈ rows, ∀ cell ∈ row.cells, cell.IsFinite)
    (otherFinite : ∀ row ∈ others, ∀ cell ∈ row.cells, cell.IsFinite)
    (same : (start.writeRows rows).output = (start.writeRows others).output) : rows = others := by
  have chars := congrArg String.toList same
  rw [toList_output, toList_output] at chars
  clear same
  induction rows generalizing others with
  | nil =>
    cases others with
    | nil => rfl
    | cons other others => simp at chars
  | cons row rows ih =>
    cases others with
    | nil => simp at chars
    | cons other others =>
      simp only [List.flatMap_cons, List.append_assoc, List.singleton_append] at chars
      obtain ⟨text, rest⟩ :=
        cut_line (newline_notMem_compact row) (newline_notMem_compact other) chars
      obtain ⟨members, read, denotes⟩ := RawJson.exists_parse?_row (finite row List.mem_cons_self)
      obtain ⟨again, readAgain, denotesAgain⟩ :=
        RawJson.exists_parse?_row (otherFinite other List.mem_cons_self)
      rw [String.toList_inj.mp text, readAgain] at read
      obtain rfl := RawJson.object.inj (Option.some.inj read)
      rw [RawJson.row_unique denotes denotesAgain,
        ih (fun row member => finite row (List.mem_cons_of_mem _ member))
          (fun row member => otherFinite row (List.mem_cons_of_mem _ member)) rest]

theorem encode_output (rows : List Row) : Utf8.encode (start.writeRows rows).output =
    rows.flatMap fun row => Utf8.encode row.toJson.compact ++ [10] := by
  rw [Utf8.encode, toList_output, List.flatMap_assoc]
  refine List.flatMap_congr fun row _ => ?_
  rw [List.flatMap_append]
  rfl

/-- What is written for finite rows has one line for each, ended by the only line feed in it, and
is not written for any other rows. -/
theorem writeRows_lossless {rows : List Row}
    (finite : ∀ row ∈ rows, ∀ cell ∈ row.cells, cell.IsFinite) :
    (start.writeRows rows).rowsWritten = rows.length ∧
      (Utf8.encode (start.writeRows rows).output).count 10 = rows.length ∧
      Utf8.encode (start.writeRows rows).output =
        (rows.flatMap fun row => Utf8.encode row.toJson.compact ++ [10]) ∧
      (∀ row ∈ rows, 10 ∉ Utf8.encode row.toJson.compact) ∧
      ∀ others : List Row, (∀ row ∈ others, ∀ cell ∈ row.cells, cell.IsFinite) →
        ((start.writeRows rows).output = (start.writeRows others).output ↔ rows = others) := by
  have inside : ∀ row : Row, 10 ∉ Utf8.encode row.toJson.compact := fun row member =>
    newline_notMem_compact row (Utf8.lineFeed_mem_encode.mp member)
  refine ⟨?_, ?_, encode_output rows, fun row _ => inside row, fun others otherFinite =>
    ⟨eq_of_output finite otherFinite, fun same => by rw [same]⟩⟩
  · rw [rowsWritten, lines_writeRows]
    simp [start]
  · rw [encode_output]
    clear finite
    induction rows with
    | nil => rfl
    | cons row rows ih => simp [ih, List.count_eq_zero_of_not_mem (inside row)]

/-- One as an integer, as a double and as a text, nothing, and the two zeros make six lines. -/
theorem writeRows_lossless_of_six_cells :
    [.integer 1, .number (Double.ofInt 1), .text "1", .missing, .number (Double.zero false),
      .number (Double.zero true)].Pairwise fun one other : Cell =>
        (start.writeRows [⟨["n"], [one], rfl⟩]).output ≠
          (start.writeRows [⟨["n"], [other], rfl⟩]).output := by
  have distinct : [Cell.integer 1, .number (Double.ofInt 1), .text "1", .missing,
      .number (Double.zero false), .number (Double.zero true)].Pairwise (· ≠ ·) := by
    decide
  have finite : ∀ cell ∈ [Cell.integer 1, .number (Double.ofInt 1), .text "1", .missing,
      .number (Double.zero false), .number (Double.zero true)], cell.IsFinite := by
    decide
  refine distinct.imp_of_mem fun {one other} member otherMember differ same => differ ?_
  have rows := ((writeRows_lossless (by simpa using finite one member)).2.2.2.2 _
    (by simpa using finite other otherMember)).mp same
  simpa using rows

end JsonLines

end Medals
