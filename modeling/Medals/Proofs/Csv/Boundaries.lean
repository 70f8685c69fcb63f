import Medals.Proofs.Csv.Blocks
import Medals.Proofs.Csv.Policy

/-!
# Where blocks end does not show

Two reading positions are alike when the same bytes are still to come in the same phase, however
they are cut into blocks. Readers at such positions, otherwise equal, answer alike and stay so
(`RowReader.Alike.next`). `RowReader.openData_of_capacities` concludes that the size of the blocks
shows in nothing but the number of bytes fetched, unless the data begin with a byte order mark.
-/

namespace Medals

namespace Csv.Cursor

/-- The same bytes are to be read from the same state; blocks and fetched bytes may differ. -/
structure Alike (one other : Cursor) : Prop where
  delimiter : one.delimiter = other.delimiter
  afterReturn : one.afterReturn = other.afterReturn
  line : one.line = other.line
  bytes : one.bytes = other.bytes

/-- Alike positions find the same record and are alike behind it. -/
theorem Alike.next {one other : Cursor} (alike : one.Alike other) :
    one.next.1 = other.next.1 ∧ one.next.2.Alike other.next.2 := by
  have scan : one.scan = other.scan := by
    rw [Cursor.scan, Cursor.scan, alike.afterReturn, alike.line]
  obtain ⟨after, found, delimiter, afterReturn, line, bytes⟩ := one.next_eq_finish
  obtain ⟨after', found', delimiter', afterReturn', line', bytes'⟩ := other.next_eq_finish
  rw [scan, alike.delimiter, alike.bytes] at found afterReturn line bytes
  rw [found, found']
  exact ⟨rfl, ⟨by rw [delimiter, delimiter', alike.delimiter], afterReturn.trans afterReturn'.symm,
    line.trans line'.symm, bytes.trans bytes'.symm⟩⟩

/-- Unmarked data are read from their first byte on, whatever the size of the blocks. -/
theorem start?_alike {delimiter : UInt8} {data : List UInt8} (unmarked : ¬ Utf8.mark <+: data)
    {one other : Nat} (onePositive : 0 < one) (otherPositive : 0 < other) :
    Option.Rel Alike (start? delimiter one data) (start? delimiter other data) := by
  by_cases empty : data = []
  · subst empty
    exact .none
  · obtain ⟨first, found, delimiter₁, phase₁, line₁, bytes₁⟩ :=
      @start?_of_unmarked delimiter _ _ onePositive empty unmarked
    obtain ⟨second, found', delimiter₂, phase₂, line₂, bytes₂⟩ :=
      @start?_of_unmarked delimiter _ _ otherPositive empty unmarked
    rw [found, found']
    exact .some ⟨delimiter₁.trans delimiter₂.symm, phase₁.trans phase₂.symm,
      line₁.trans line₂.symm, bytes₁.trans bytes₂.symm⟩

end Csv.Cursor

namespace RowReader

/-- The readers differ at most in the blocks of the bytes to come. -/
def Alike (one other : RowReader) : Prop :=
  ∃ cursor, one.cursor.Alike cursor ∧ other = { one with cursor }

section Alike

variable {one other : RowReader}

/-- Readers that are alike give the same answer to a pull and are alike after it. The induction is
on the bytes to come, for a reader may pass over any number of malformed records in one pull. -/
theorem Alike.next (alike : one.Alike other) :
    one.next.1 = other.next.1 ∧ one.next.2.Alike other.next.2 := by
  obtain ⟨cursor, positions, rfl⟩ := alike
  induction size : one.cursor.remaining using Nat.strongRecOn generalizing one cursor with
  | _ size ih =>
    by_cases finished : one.finished = true
    · rw [next_of_finished finished, @next_of_finished { one with cursor } finished]
      exact ⟨rfl, cursor, positions, rfl⟩
    · have unfinished : one.finished = false := by simpa using finished
      by_cases full : one.limitReached = true
      · rw [next_of_limit unfinished full,
          @next_of_limit { one with cursor } unfinished full]
        exact ⟨rfl, cursor, positions, rfl⟩
      · have room : one.limitReached = false := by simpa using full
        obtain ⟨same, behind⟩ := positions.next
        cases found : one.cursor.next with
        | mk record? after =>
          cases found' : cursor.next with
          | mk record?' after' =>
            rw [found, found'] at same behind
            obtain rfl : record? = record?' := same
            cases record? with
            | none =>
              rw [next_of_end unfinished room found,
                @next_of_end { one with cursor } unfinished room _ found']
              exact ⟨rfl, after', behind, rfl⟩
            | some record =>
              have shorter := Csv.Cursor.next_remaining_lt found
              rw [next_of_record unfinished room found,
                @next_of_record { one with cursor } unfinished room _ _ found',
                show ({ one with cursor } : RowReader).defect? cursor.line record =
                  one.defect? one.cursor.line record by rw [positions.line]; rfl]
              cases one.defect? one.cursor.line record with
              | none => exact ⟨rfl, after', behind, rfl⟩
              | some fault =>
                obtain ⟨source, _, columns, nullTokens, policy, _⟩ := one
                cases policy with
                | skip => exact ih _ (size ▸ shorter) after' behind rfl
                | fail => exact ⟨rfl, after', behind, rfl⟩
                | pad => exact ⟨rfl, after', behind, rfl⟩

theorem Alike.pulled (alike : one.Alike other) (pulls : Nat) :
    (one.pulled pulls).Alike (other.pulled pulls) := by
  induction pulls generalizing one other with
  | zero => exact alike
  | succ pulls ih => exact ih alike.next.2

end Alike

/-- Nothing that the readers show tells them apart: the names, and after any number of pulls the
next answer, the schema and the statistics, in which the number of bytes fetched is left out. -/
structure ShowsAlike (one other : RowReader) : Prop where
  names : one.names = other.names
  answer : ∀ pulls, (one.pulled pulls).next.1 = (other.pulled pulls).next.1
  schema : ∀ pulls, (one.pulled pulls).schema = (other.pulled pulls).schema
  stats : ∀ pulls, { (one.pulled pulls).stats with bytesRead := 0 } =
    { (other.pulled pulls).stats with bytesRead := 0 }

theorem Alike.showsAlike {one other : RowReader} (alike : one.Alike other) :
    one.ShowsAlike other where
  names := by
    obtain ⟨_, _, rfl⟩ := alike
    rfl
  answer pulls := (alike.pulled pulls).next.1
  schema pulls := by
    obtain ⟨_, _, same⟩ := alike.pulled pulls
    rw [same]
    rfl
  stats pulls := by
    obtain ⟨_, _, same⟩ := alike.pulled pulls
    rw [same]
    rfl

/-- Both fail with the same fault, or both succeed with readers that show the same. -/
inductive OpensAlike : Except Fault RowReader → Except Fault RowReader → Prop where
  | ok {one other : RowReader} (alike : one.ShowsAlike other) : OpensAlike (.ok one) (.ok other)
  | error (fault : Fault) : OpensAlike (.error fault) (.error fault)

/-- Data open alike when the reading starts at alike positions. -/
theorem opensAlike_of_start {data other : List UInt8} {options : ReadOptions} {capacity : Nat}
    (start : Option.Rel Csv.Cursor.Alike
      (Csv.Cursor.start? options.delimiter options.bufferCapacity data)
      (Csv.Cursor.start? options.delimiter capacity other)) (source : String) :
    OpensAlike (openData data source options)
      (openData other source { options with bufferCapacity := capacity }) := by
  unfold openData
  generalize Csv.Cursor.start? options.delimiter options.bufferCapacity data = one at *
  generalize Csv.Cursor.start? options.delimiter capacity other = another at *
  cases start with
  | none => exact .error _
  | @some first second alike =>
    obtain ⟨same, behind⟩ := alike.next
    simp only [Option.map_some]
    cases found : first.next with
    | mk header? cursor =>
      cases found' : second.next with
      | mk header?' cursor' =>
        rw [found, found'] at same behind
        obtain rfl : header? = header?' := same
        cases header? with
        | none => exact .error _
        | some header =>
          dsimp only
          cases header.findIdx? fun field => !Utf8.isValid field with
          | some index => exact .error _
          | none =>
            dsimp only
            cases firstRepeated? [] (headerNames header) with
            | some name => exact .error _
            | none => exact .ok (Alike.showsAlike ⟨cursor', behind, rfl⟩)

/-- The size of the blocks in which data are fetched does not show, unless the data begin with a byte
order mark: the same readers are opened or the same faults given, and the readers show the same. -/
theorem openData_of_capacities {data : List UInt8} (unmarked : ¬ Utf8.mark <+: data)
    {one other : Nat} (onePositive : 0 < one) (otherPositive : 0 < other) (source : String)
    (options : ReadOptions) :
    OpensAlike (openData data source { options with bufferCapacity := one })
      (openData data source { options with bufferCapacity := other }) := by
  refine @opensAlike_of_start _ _ { options with bufferCapacity := one } _ ?_ source
  exact Csv.Cursor.start?_alike unmarked onePositive otherPositive

/-- Single bytes as blocks cut a quoted field at a doubled quote and between the bytes of a character
and of a line end. -/
theorem openData_of_single_bytes :
    ∃ one other,
      openData [97, 13, 10, 34, 34, 34, 0xc3, 0xa9, 34, 13, 10, 44, 10] "inline"
          ⟨44, none, .fail, [], [], 1⟩ = .ok one ∧
        openData [97, 13, 10, 34, 34, 34, 0xc3, 0xa9, 34, 13, 10, 44, 10] "inline"
          ⟨44, none, .fail, [], [], 64⟩ = .ok other ∧
        one.ShowsAlike other := by
  have opens : (openData [97, 13, 10, 34, 34, 34, 0xc3, 0xa9, 34, 13, 10, 44, 10] "inline"
      ⟨44, none, .fail, [], [], 1⟩).isOk = true := by decide
  have alike := @openData_of_capacities [97, 13, 10, 34, 34, 34, 0xc3, 0xa9, 34, 13, 10, 44, 10]
    (by decide) 1 64 (by decide) (by decide) "inline" ⟨44, none, .fail, [], [], 1⟩
  generalize openData _ _ ⟨44, none, .fail, [], [], 1⟩ = first at opens alike ⊢
  generalize openData _ _ ⟨44, none, .fail, [], [], 64⟩ = second at alike ⊢
  cases alike with
  | ok same => exact ⟨_, _, rfl, rfl, same⟩
  | error fault => contradiction

end RowReader

end Medals
