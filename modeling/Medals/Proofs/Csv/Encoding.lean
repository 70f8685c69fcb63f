import Medals.Csv.Writer
import Medals.Proofs.Csv.Blocks

/-!
# Scanning what has been encoded

The scanner reads the fields of an encoded record back one by one: between quotes a doubled quote
becomes one again, and an unquoted field holds no byte that would end it. A record is never encoded
as an empty line. `Cursor.records_of_encoded` carries this over to a whole source, whatever the
blocks in which it is fetched.
-/

namespace Medals

namespace Csv

/-- A byte between fields: neither a quote nor part of a line end. -/
structure Separates (delimiter : UInt8) : Prop where
  notQuote : delimiter ≠ quote
  notReturn : delimiter ≠ carriageReturn
  notFeed : delimiter ≠ lineFeed

namespace Phase

/-- A field that has come to this phase may end with the next byte. -/
def Closes (phase : Phase) : Prop :=
  phase = fieldStart ∨ phase = plain ∨ phase = quoteSeen

theorem Closes.delimiter {delimiter : UInt8} {phase : Phase} (closes : phase.Closes)
    (separates : Separates delimiter) :
    step delimiter phase delimiter = (.fieldStart, .endField) := by
  rcases closes with rfl | rfl | rfl <;>
    simp [step, fieldStep, plainStep, separates.notQuote]

theorem Closes.lineFeed {delimiter : UInt8} {phase : Phase} (closes : phase.Closes)
    (separates : Separates delimiter) :
    step delimiter phase lineFeed = (.recordStart, .endRecord) := by
  have feed : Csv.lineFeed ≠ quote := by decide
  have noReturn : Csv.lineFeed ≠ carriageReturn := by decide
  rcases closes with rfl | rfl | rfl <;>
    simp [step, fieldStep, plainStep, separates.notFeed.symm, feed, noReturn]

end Phase

namespace Scan

section Fields

variable (delimiter : UInt8)

/-- Bytes that force no quotes are kept as they are. -/
theorem block_plain {phase : Phase} (opens : phase = .fieldStart ∨ phase = .plain) (line : Nat)
    (field : List UInt8) (fields : List (List UInt8)) {bytes : List UInt8}
    (ordinary : ∀ byte ∈ bytes, needsQuotes delimiter byte = false) (rest : List UInt8) :
    ∃ last : Phase, last.Closes ∧
      block delimiter ⟨phase, line, field, fields⟩ (bytes ++ rest) =
        block delimiter ⟨last, line, bytes.reverse ++ field, fields⟩ rest := by
  induction bytes generalizing phase field with
  | nil => exact ⟨phase, by rcases opens with rfl | rfl <;> simp [Phase.Closes], rfl⟩
  | cons byte bytes ih =>
    have kept : byte ≠ delimiter ∧ byte ≠ quote ∧ byte ≠ carriageReturn ∧ byte ≠ lineFeed := by
      have quiet := ordinary byte List.mem_cons_self
      simpa [needsQuotes, and_assoc] using quiet
    have moves : step delimiter phase byte = (.plain, .keep) := by
      rcases opens with rfl | rfl <;> simp [step, fieldStep, plainStep, kept]
    obtain ⟨last, closes, scanned⟩ := ih (.inr rfl) (byte :: field)
      fun other later => ordinary other (List.mem_cons_of_mem byte later)
    refine ⟨last, closes, ?_⟩
    rw [List.cons_append, block, take, moves]
    simpa [kept.2.2.2] using scanned

/-- Between quotes every byte is kept, a doubled quote once. -/
theorem block_doubleQuotes (line : Nat) (field : List UInt8) (fields : List (List UInt8))
    (bytes rest : List UInt8) :
    ∃ line', block delimiter ⟨.quoted, line, field, fields⟩ (doubleQuotes bytes ++ rest) =
      block delimiter ⟨.quoted, line', bytes.reverse ++ field, fields⟩ rest := by
  induction bytes generalizing line field with
  | nil => exact ⟨line, rfl⟩
  | cons byte bytes ih =>
    by_cases doubled : byte = quote
    · subst doubled
      obtain ⟨line', scanned⟩ := ih line (quote :: field)
      have feed : quote ≠ lineFeed := by decide
      refine ⟨line', ?_⟩
      have split : doubleQuotes (quote :: bytes) = quote :: quote :: doubleQuotes bytes := by
        simp [doubleQuotes]
      rw [split]
      simpa [block, take, step, feed] using scanned
    · obtain ⟨line', scanned⟩ := ih (if byte = lineFeed then line + 1 else line) (byte :: field)
      refine ⟨line', ?_⟩
      have split : doubleQuotes (byte :: bytes) = byte :: doubleQuotes bytes := by
        simp [doubleQuotes, doubled]
      rw [split, List.cons_append, block]
      simpa [take, step, doubled] using scanned

/-- An encoded field is scanned back to the point where it may end. -/
theorem block_encodeField (line : Nat) (fields : List (List UInt8)) (field rest : List UInt8) :
    ∃ last : Phase, last.Closes ∧ ∃ line',
      block delimiter ⟨.fieldStart, line, [], fields⟩ (encodeField delimiter field ++ rest) =
        block delimiter ⟨last, line', field.reverse, fields⟩ rest := by
  by_cases quotes : field.any (needsQuotes delimiter) = true
  · obtain ⟨line', scanned⟩ :=
      block_doubleQuotes delimiter line [] fields field (quote :: rest)
    have feed : quote ≠ lineFeed := by decide
    refine ⟨.quoteSeen, .inr (.inr rfl), line', ?_⟩
    have split : encodeField delimiter field ++ rest =
        quote :: (doubleQuotes field ++ quote :: rest) := by
      simp [encodeField, quotes]
    have opened : block delimiter ⟨.fieldStart, line, [], fields⟩
        (quote :: (doubleQuotes field ++ quote :: rest)) =
        block delimiter ⟨.quoted, line, [], fields⟩ (doubleQuotes field ++ quote :: rest) := by
      rw [block]
      simp [take, step, fieldStep, feed]
    rw [split, opened, scanned, block]
    simp [take, step, feed]
  · have ordinary : ∀ byte ∈ field, needsQuotes delimiter byte = false := by simpa using quotes
    obtain ⟨last, closes, scanned⟩ :=
      block_plain delimiter (.inl rfl) line [] fields ordinary rest
    refine ⟨last, closes, line, ?_⟩
    rw [encodeField, if_neg quotes]
    simpa using scanned

variable {delimiter} (separates : Separates delimiter)

include separates

/-- The fields of a record, each behind its delimiter, are scanned back up to the line end. -/
theorem block_fields (line : Nat) (fields : List (List UInt8)) {record : Record}
    (someField : record ≠ []) (rest : List UInt8) :
    ∃ scan : Scan, scan.phase = .recordStart ∧ scan.record = fields.reverse ++ record ∧
      block delimiter ⟨.fieldStart, line, [], fields⟩
        ([delimiter].intercalate (record.map (encodeField delimiter)) ++ lineFeed :: rest) =
          (scan, rest, true) := by
  induction record generalizing line fields with
  | nil => exact absurd rfl someField
  | cons field others ih =>
    cases others with
    | nil =>
      obtain ⟨last, closes, line', scanned⟩ :=
        block_encodeField delimiter line fields field (lineFeed :: rest)
      refine ⟨⟨.recordStart, line' + 1, field.reverse, fields⟩, rfl, by simp [Scan.record], ?_⟩
      rw [List.map_singleton, List.intercalate_singleton, scanned, block, take,
        closes.lineFeed separates]
      simp
    | cons second others =>
      obtain ⟨last, closes, line', scanned⟩ :=
        block_encodeField delimiter line fields field (delimiter ::
          ([delimiter].intercalate ((second :: others).map (encodeField delimiter)) ++
            lineFeed :: rest))
      obtain ⟨scan, phase, record, found⟩ := ih line' (field :: fields) (by simp)
      refine ⟨scan, phase, by simpa using record, ?_⟩
      rw [List.map_cons, List.map_cons, List.intercalate_cons_cons, List.append_assoc,
        List.append_assoc, List.singleton_append, ← List.map_cons, scanned, block, take,
        closes.delimiter separates]
      simpa [separates.notFeed] using found

/-- The fields of a record never begin with a line end. -/
theorem head_fields {record : Record} {byte : UInt8} {rest : List UInt8}
    (begins : [delimiter].intercalate (record.map (encodeField delimiter)) = byte :: rest) :
    byte ≠ carriageReturn ∧ byte ≠ lineFeed := by
  have separator : delimiter ≠ carriageReturn ∧ delimiter ≠ lineFeed :=
    ⟨separates.notReturn, separates.notFeed⟩
  cases record with
  | nil => simp at begins
  | cons field others =>
    cases encoded : encodeField delimiter field with
    | nil =>
      cases others with
      | nil => simp [encoded] at begins
      | cons second others =>
        simp only [List.map_cons, encoded, List.intercalate_cons_cons, List.nil_append,
          List.singleton_append, List.cons.injEq] at begins
        exact begins.1 ▸ separator
    | cons head tail =>
      rw [List.map_cons, encoded, List.intercalate_cons_cons_left, List.cons.injEq] at begins
      obtain rfl := begins.1
      by_cases quotes : field.any (needsQuotes delimiter) = true
      · rw [encodeField, if_pos quotes, List.cons.injEq] at encoded
        rw [← encoded.1]
        decide
      · rw [encodeField, if_neg quotes] at encoded
        have ordinary : needsQuotes delimiter head = false := by
          rw [encoded, List.any_cons, Bool.not_eq_true, Bool.or_eq_false_iff] at quotes
          exact quotes.1
        have kept : ((head ≠ delimiter ∧ head ≠ quote) ∧ head ≠ carriageReturn) ∧
            head ≠ lineFeed := by simpa [needsQuotes] using ordinary
        exact ⟨kept.1.2, kept.2⟩

/-- An encoded record is scanned back, and what follows it is left over. -/
theorem block_encodeRecord (line : Nat) {record : Record} (someField : record ≠ [])
    (rest : List UInt8) :
    ∃ scan : Scan, scan.phase = .recordStart ∧ scan.record = record ∧
      (start .recordStart line).block delimiter (encodeRecord delimiter record ++ rest) =
        (scan, rest, true) := by
  obtain ⟨scan, phase, found, scanned⟩ := block_fields separates line [] someField rest
  cases body : [delimiter].intercalate (record.map (encodeField delimiter)) with
  | nil =>
    -- Only the record of one empty field has no byte in it, and it is written between quotes.
    have feed : step delimiter .fieldStart lineFeed = (.recordStart, .endRecord) :=
      Phase.Closes.lineFeed (.inl rfl) separates
    have closed : step delimiter .quoteSeen lineFeed = (.recordStart, .endRecord) :=
      Phase.Closes.lineFeed (.inr (.inr rfl)) separates
    have opened : step delimiter .recordStart quote = (.quoted, .skip) := by
      rw [step, recordStep, if_neg (by decide), fieldStep, if_pos rfl]
    have seen : step delimiter .quoted quote = (.quoteSeen, .skip) := by rw [step, if_pos rfl]
    have inner : quote ≠ lineFeed := by decide
    rw [body] at scanned
    refine ⟨scan, phase, found, ?_⟩
    rw [← scanned, encodeRecord, body, if_pos rfl]
    simp [block, take, start, feed, closed, opened, seen, inner]
  | cons byte others =>
    have noLineEnd := head_fields separates body
    refine ⟨scan, phase, found, ?_⟩
    rw [body] at scanned
    rw [encodeRecord, body, if_neg (by simp), ← scanned, List.append_assoc, List.singleton_append,
      List.cons_append]
    have same : step delimiter .recordStart byte = step delimiter .fieldStart byte := by
      simp [step, recordStep, noLineEnd]
    rw [block, block, start, take, take, same]

end Fields

end Scan

namespace Cursor

/-- The records to come are those whose encodings are the bytes to come. -/
theorem records_of_encoded {cursor : Cursor} {records : List Record}
    (separates : Separates cursor.delimiter) (between : cursor.afterReturn = false)
    (someField : ∀ record ∈ records, record ≠ [])
    (encoded : cursor.bytes = (records.map (encodeRecord cursor.delimiter)).flatten) :
    cursor.records.map Prod.snd = records := by
  induction records generalizing cursor with
  | nil =>
    obtain ⟨after, next, _⟩ := cursor.next_eq_finish
    have ended : cursor.next = (none, after) := by
      rw [next, encoded, scan, between]
      rfl
    rw [records_of_end ended, List.map_nil]
  | cons record others ih =>
    obtain ⟨scan, phase, found, scanned⟩ := Scan.block_encodeRecord separates cursor.line
      (someField record List.mem_cons_self) (others.map (encodeRecord cursor.delimiter)).flatten
    have finished : cursor.scan.finish cursor.delimiter cursor.bytes =
        (some record, scan, (others.map (encodeRecord cursor.delimiter)).flatten) := by
      have begins : cursor.scan = Scan.start .recordStart cursor.line := by
        simp [Cursor.scan, between]
      rw [encoded, begins, List.map_cons, List.flatten_cons, Scan.finish, scanned]
      simp only [found]
    obtain ⟨after, next, delimiter, afterReturn, _, left⟩ := cursor.next_eq_finish
    rw [finished] at next afterReturn left
    have goesOn : after.afterReturn = false := by simp [afterReturn, phase]
    rw [← delimiter] at separates left
    rw [records_of_record next, List.map_cons, ih separates goesOn
      (fun other later => someField other (List.mem_cons_of_mem record later)) left]

end Cursor

end Csv

end Medals
