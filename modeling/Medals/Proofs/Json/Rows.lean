import Medals.Proofs.Json.Numbers
import Medals.Proofs.Json.Texts

/-!
# Rows in documents

The object that a row is written as is read back (`RawJson.exists_parse?_row`), and what is read
stands for one row only (`RawJson.row_unique`): names and texts are told from each other by their
characters, integers from other numbers by their form, and a double by the numbers that round to it
and by its sign. Infinities and NaN are left out, as they are written like missing cells.
-/

namespace Medals

/-- Anything but an infinity or a NaN. -/
def Cell.IsFinite : Cell → Prop
  | number value => value.isFinite = true
  | _ => True

instance : DecidablePred Cell.IsFinite
  | .missing => inferInstanceAs (Decidable True)
  | .integer _ => inferInstanceAs (Decidable True)
  | .number _ => inferInstanceAs (Decidable (_ = true))
  | .text _ => inferInstanceAs (Decidable True)

/-- The member that is written for a cell under its name. -/
def Json.ofEntry (entry : String × Cell) : String × Json :=
  (entry.1, entry.2.toJson)

theorem Row.toJson_eq (row : Row) : row.toJson = .object (row.entries.map Json.ofEntry) :=
  rfl

theorem Row.ext_entries {one other : Row} (same : one.entries = other.entries) : one = other := by
  have names : one.names = other.names := by
    rw [← List.map_fst_zip one.width.ge, ← List.map_fst_zip other.width.ge]
    exact congrArg (List.map Prod.fst) same
  have cells : one.cells = other.cells := by
    rw [← List.map_snd_zip one.width.le, ← List.map_snd_zip other.width.le]
    exact congrArg (List.map Prod.snd) same
  cases one
  cases other
  congr

theorem Double.ext_of_sign {x y : Double} (sign : x.isNegative = y.isNegative)
    (size : x.magnitude = y.magnitude) : x = y :=
  rank_injective (by simp [rank, sign, size])

namespace RawJson

section Meaning

/-- A part of a document stands for a cell. A number without a fraction and a power of ten is an
integer; any other stands for the double it rounds to. -/
inductive Denotes : RawJson → Cell → Prop where
  | missing : Denotes null .missing
  | integer {raw : RawNumber} {value : Int64} (plain : raw.fraction? = none ∧ raw.power? = none)
    (same : (if raw.negative then -(Numeral.digitsValue raw.whole : Int)
      else Numeral.digitsValue raw.whole) = value.toInt) : Denotes (number raw) (.integer value)
  | number {raw : RawNumber} {value : Double}
    (broken : raw.fraction? ≠ none ∨ raw.power? ≠ none) (sign : raw.negative = value.isNegative)
    (rounds : (RoundingInterval.ofDouble value).Contains raw.magnitude) :
    Denotes (number raw) (.number value)
  | text {chars : List Char} {value : String} (meaning : textOf? chars = some value) :
    Denotes (text chars) (.text value)

/-- A part of a document stands for one cell only. -/
theorem Denotes.unique {raw : RawJson} {one other : Cell} (first : raw.Denotes one)
    (second : raw.Denotes other) : one = other := by
  cases first with
  | missing =>
    cases second
    rfl
  | integer plain same =>
    cases second with
    | integer _ again => rw [Int64.toInt_inj.mp (same.symm.trans again)]
    | number broken => exact (broken.elim (· plain.1) (· plain.2)).elim
  | number broken sign rounds =>
    cases second with
    | integer plain => exact (broken.elim (· plain.1) (· plain.2)).elim
    | number _ again inside =>
      exact congrArg Cell.number (Double.ext_of_sign (sign.symm.trans again)
        (Double.magnitude_eq_of_contains rounds inside))
  | text meaning =>
    cases second with
    | text again => exact congrArg Cell.text (Option.some.inj (meaning.symm.trans again))

/-- The members of an object stand for named cells, in order. -/
def DenoteEntries (members : List (List Char × RawJson)) (entries : List (String × Cell)) : Prop :=
  List.Forall₂ (fun member entry => textOf? member.1 = some entry.1 ∧ member.2.Denotes entry.2)
    members entries

theorem DenoteEntries.unique {members : List (List Char × RawJson)}
    {one other : List (String × Cell)} (first : DenoteEntries members one)
    (second : DenoteEntries members other) : one = other := by
  induction first generalizing other with
  | nil =>
    cases second
    rfl
  | cons head _ ih =>
    cases second with
    | cons again rest =>
      have name := Option.some.inj (head.1.symm.trans again.1)
      have cell := head.2.unique again.2
      rw [ih rest, Prod.ext name cell]

end Meaning

section Scalars

/-- Nothing open begins, and no blank is skipped. -/
def Starts (chars : List Char) : Prop :=
  ∃ c rest, chars = c :: rest ∧ isSpace c = false ∧ c ≠ '[' ∧ c ≠ '\x7b'

/-- The characters are read as a part of a document, whatever follows them that does not continue
a number. -/
structure Reads (chars : List Char) (raw : RawJson) : Prop where
  starts : Starts chars
  readScalar : ∀ {rest : List Char}, RawNumber.Ends rest →
    RawJson.readScalar (chars ++ rest) = some (raw, rest)

theorem reads_null : Reads "null".toList null := by
  refine ⟨⟨'n', ['u', 'l', 'l'], rfl, by decide, by decide, by decide⟩, fun _ => ?_⟩
  simp [RawJson.readScalar, afterWord?]

theorem reads_text (text : String) :
    Reads (Json.textLiteral text).toList (RawJson.text (Json.escaped text.toList)) := by
  rw [Json.toList_textLiteral]
  refine ⟨⟨'"', _, rfl, by decide, by decide, by decide⟩, fun {rest} _ => ?_⟩
  rw [List.cons_append, List.append_assoc, List.singleton_append, RawJson.readScalar,
    readText_escaped]
  rfl

theorem reads_number {number : RawNumber} (regular : number.Regular) :
    Reads number.chars (RawJson.number number) := by
  obtain ⟨c, rest, begins, first⟩ : ∃ c rest, number.chars = c :: rest ∧
      (c = '-' ∨ Numeral.isDigit c = true) := by
    obtain ⟨digit, digits, whole⟩ := List.exists_cons_of_ne_nil regular.whole_nonempty
    cases negative : number.negative with
    | true => exact ⟨'-', _, by rw [RawNumber.chars, negative]; rfl, .inl rfl⟩
    | false =>
      exact ⟨digit, _, by rw [RawNumber.chars, negative, whole]; rfl,
        .inr (regular.whole_digits digit (by simp [whole]))⟩
  have other : ∀ special, special ≠ '-' → Numeral.isDigit special = false → c ≠ special := by
    rintro special sign digit rfl
    rcases first with minus | start
    · exact sign minus
    · simp [digit] at start
  refine ⟨⟨c, rest, begins, ?_, other _ (by decide) (by decide), other _ (by decide) (by decide)⟩,
    fun {behind} ends => ?_⟩
  · simp only [isSpace, Bool.or_eq_false_iff, beq_eq_false_iff_ne]
    exact ⟨⟨⟨other ' ' (by decide) (by decide), other '\n' (by decide) (by decide)⟩,
      other '\t' (by decide) (by decide)⟩, other '\r' (by decide) (by decide)⟩
  · rw [← readNumber_chars regular ends, begins, List.cons_append, RawJson.readScalar]
    all_goals
      intro _ same
      exact absurd (List.cons.inj same).1 (other _ (by decide) (by decide))

/-- Finite cells are read back. -/
theorem exists_reads {cell : Cell} (finite : cell.IsFinite) :
    ∃ raw, Reads cell.toJson.compact.toList raw ∧ raw.Denotes cell := by
  cases cell with
  | missing => exact ⟨null, reads_null, .missing⟩
  | integer value =>
    refine ⟨.number (RawNumber.ofInt value.toInt), ?_, .integer ⟨rfl, rfl⟩ ?_⟩
    · have reads := reads_number (RawNumber.regular_ofInt value.toInt)
      rwa [RawNumber.chars_ofInt] at reads
    · have digits := Numeral.digitsValue_toDigits value.toInt.natAbs
      simp only [RawNumber.ofInt, digits, decide_eq_true_eq]
      split <;> omega
  | number value =>
    obtain ⟨raw, writes, text⟩ := RawNumber.exists_documentText finite
    refine ⟨.number raw, ?_, .number writes.broken writes.sign ?_⟩
    · have literal : (Cell.number value).toJson.compact = value.documentText := if_pos finite
      rw [literal, ← text]
      exact reads_number writes.regular
    · rw [writes.magnitude]
      exact Double.contains_shortest value .toEven
  | text value =>
    exact ⟨_, reads_text value, .text (textOf?_escaped value)⟩

end Scalars

section Objects

/-- A part of a document is taken in one step. -/
theorem Reads.readFrom {chars : List Char} {raw : RawJson} (reads : Reads chars raw)
    (frames : List Frame) {rest : List Char} (ends : RawNumber.Ends rest) (fuel : Nat) :
    RawJson.readFrom frames none (chars ++ rest) (fuel + 1) =
      RawJson.readFrom frames (some raw) rest fuel := by
  have scalar := reads.readScalar ends
  obtain ⟨c, more, rfl, space, array, object⟩ := reads.starts
  rw [List.cons_append] at scalar ⊢
  have kept : skipSpaces (c :: (more ++ rest)) = c :: (more ++ rest) :=
    List.dropWhile_cons_of_neg (by simp [space])
  conv_lhs => unfold RawJson.readFrom
  rw [kept]
  split
  case h_1 same => exact absurd (List.cons.inj same).1 array
  case h_2 same => exact absurd (List.cons.inj same).1 object
  case h_3 => rw [scalar]
  all_goals contradiction

/-- The name of a member is read with its colon. -/
theorem readName_textLiteral (name : String) (rest : List Char) :
    readName ((Json.textLiteral name ++ ":").toList ++ rest) =
      some (Json.escaped name.toList, rest) := by
  have text : (Json.textLiteral name ++ ":").toList ++ rest =
      '"' :: (Json.escaped name.toList ++ '"' :: ':' :: rest) := by
    rw [String.toList_append, Json.toList_textLiteral]
    simp
  have opening : ∀ chars, skipSpaces ('"' :: chars) = '"' :: chars := fun _ => rfl
  have colon : skipSpaces (':' :: rest) = ':' :: rest := rfl
  rw [text, readName, opening]
  simp only [readText_escaped, colon, List.reverse_nil, List.nil_append]

theorem readFrom_close (members : List (List Char × RawJson)) (name : List Char)
    (frames : List Frame) (raw : RawJson) (rest : List Char) (fuel : Nat) :
    RawJson.readFrom (.object members name :: frames) (some raw) ('\x7d' :: rest) (fuel + 1) =
      RawJson.readFrom frames (some (.object (members.reverse ++ [(name, raw)]))) rest fuel := by
  have brace : skipSpaces ('\x7d' :: rest) = '\x7d' :: rest := rfl
  conv_lhs => unfold RawJson.readFrom
  simp only [brace, List.reverse_cons]

theorem readFrom_comma (members : List (List Char × RawJson)) (name : List Char)
    (frames : List Frame) (raw : RawJson) (next : String) (rest : List Char) (fuel : Nat) :
    RawJson.readFrom (.object members name :: frames) (some raw)
        (',' :: ((Json.textLiteral next ++ ":").toList ++ rest)) (fuel + 1) =
      RawJson.readFrom (.object ((name, raw) :: members) (Json.escaped next.toList) :: frames) none
        rest fuel := by
  have comma : ∀ chars, skipSpaces (',' :: chars) = ',' :: chars := fun _ => rfl
  conv_lhs => unfold RawJson.readFrom
  simp only [comma, readName_textLiteral]

/-- The members of an object, without the name of the first. -/
def behindName (item : Json) : List (String × Json) → String
  | [] => item.compact
  | more => item.compact ++ "," ++ Json.compactMembers more

theorem compactMembers_cons (name : String) (item : Json) (more : List (String × Json)) :
    Json.compactMembers ((name, item) :: more) =
      Json.textLiteral name ++ ":" ++ behindName item more := by
  cases more with
  | nil => rfl
  | cons next more => simp [Json.compactMembers, behindName, String.append_assoc]

/-- Two steps for each member take the rest of an object. -/
theorem exists_readFrom_members {entries : List (String × Cell)} {cell : Cell}
    (finite : cell.IsFinite) (allFinite : ∀ entry ∈ entries, entry.2.IsFinite) :
    ∃ raw members, raw.Denotes cell ∧ DenoteEntries members entries ∧
      ∀ name before frames rest fuel,
        RawJson.readFrom (.object before name :: frames) none
            ((behindName cell.toJson (entries.map Json.ofEntry)).toList ++ '\x7d' :: rest)
            (fuel + 2 * (entries.length + 1)) =
          RawJson.readFrom frames (some (.object (before.reverse ++ (name, raw) :: members))) rest
            fuel := by
  induction entries generalizing cell with
  | nil =>
    obtain ⟨raw, reads, denotes⟩ := exists_reads finite
    refine ⟨raw, [], denotes, .nil, fun name before frames rest fuel => ?_⟩
    rw [List.map_nil, behindName]
    exact (reads.readFrom _ (.of_head (by decide)) (fuel + 1)).trans (readFrom_close _ _ _ _ _ _)
  | cons entry entries ih =>
    obtain ⟨raw, reads, denotes⟩ := exists_reads finite
    obtain ⟨next, item⟩ := entry
    obtain ⟨second, members, denotesSecond, denoteRest, run⟩ :=
      ih (allFinite _ List.mem_cons_self) fun entry member =>
        allFinite entry (List.mem_cons_of_mem _ member)
    refine ⟨raw, (Json.escaped next.toList, second) :: members, denotes,
      .cons ⟨textOf?_escaped next, denotesSecond⟩ denoteRest,
      fun name before frames rest fuel => ?_⟩
    have text : (behindName cell.toJson (((next, item) :: entries).map Json.ofEntry)).toList ++
        '\x7d' :: rest = cell.toJson.compact.toList ++
          ',' :: ((Json.textLiteral next ++ ":").toList ++
            ((behindName item.toJson (entries.map Json.ofEntry)).toList ++ '\x7d' :: rest)) := by
      rw [List.map_cons, Json.ofEntry, behindName, compactMembers_cons]
      · simp
      · exact List.cons_ne_nil _ _
    rw [text, List.length_cons,
      show fuel + 2 * (entries.length + 1 + 1) = fuel + 2 * (entries.length + 1) + 1 + 1 by omega,
      reads.readFrom _ (.of_head (by decide)), readFrom_comma, run]
    simp

/-- An object that is not empty is entered with its first name. -/
theorem readFrom_open (frames : List Frame) (name : String) (rest : List Char) (fuel : Nat) :
    RawJson.readFrom frames none ('\x7b' :: ((Json.textLiteral name ++ ":").toList ++ rest))
        (fuel + 1) =
      RawJson.readFrom (.object [] (Json.escaped name.toList) :: frames) none rest fuel := by
  have named := readName_textLiteral name rest
  rw [String.toList_append, Json.toList_textLiteral, List.cons_append, List.cons_append] at named ⊢
  have brace : ∀ chars, skipSpaces ('\x7b' :: chars) = '\x7b' :: chars := fun _ => rfl
  have quote : ∀ chars, skipSpaces ('"' :: chars) = '"' :: chars := fun _ => rfl
  conv_lhs => unfold RawJson.readFrom
  simp only [brace, quote]
  split
  · next same => exact absurd (List.cons.inj same).1 (by decide)
  · rw [named]

theorem length_le_compactMembers (members : List (String × Json)) :
    members.length ≤ (Json.compactMembers members).length := by
  induction members with
  | nil => exact Nat.zero_le _
  | cons member members ih =>
    have some : 0 < (Json.textLiteral member.1).length := by
      rw [← String.length_toList, Json.toList_textLiteral]
      exact Nat.succ_pos _
    have whole : (Json.compactMembers (member :: members)).length =
        (Json.textLiteral member.1).length + 1 + (behindName member.2 members).length := by
      rw [compactMembers_cons, String.length_append, String.length_append]
      rfl
    have behind : (Json.compactMembers members).length ≤ (behindName member.2 members).length := by
      cases members with
      | nil => exact Nat.zero_le _
      | cons next members =>
        simp [behindName, String.length_append]
    rw [whole, List.length_cons]
    omega

end Objects

section Rows

/-- The object that a row of finite cells is written as is read back. -/
theorem exists_parse?_row {row : Row} (finite : ∀ cell ∈ row.cells, cell.IsFinite) :
    ∃ members, parse? row.toJson.compact = some (.object members) ∧
      DenoteEntries members row.entries := by
  have allFinite : ∀ entry ∈ row.entries, entry.2.IsFinite :=
    fun entry member => finite _ (List.of_mem_zip member).2
  rw [Row.toJson_eq, Json.compact]
  generalize row.entries = entries at *
  cases entries with
  | nil => exact ⟨[], rfl, .nil⟩
  | cons entry entries =>
    obtain ⟨name, cell⟩ := entry
    obtain ⟨raw, members, denotes, denoteRest, run⟩ := exists_readFrom_members
      (allFinite _ List.mem_cons_self) fun entry member =>
        allFinite entry (List.mem_cons_of_mem _ member)
    refine ⟨(Json.escaped name.toList, raw) :: members, ?_,
      .cons ⟨textOf?_escaped name, denotes⟩ denoteRest⟩
    have text : ("\x7b" ++ Json.compactMembers (((name, cell) :: entries).map Json.ofEntry) ++
        "\x7d").toList = '\x7b' :: ((Json.textLiteral name ++ ":").toList ++
          ((behindName cell.toJson (entries.map Json.ofEntry)).toList ++ ['\x7d'])) := by
      rw [List.map_cons, Json.ofEntry, compactMembers_cons]
      simp
    have long := length_le_compactMembers (((name, cell) :: entries).map Json.ofEntry)
    have size := congrArg List.length text
    rw [String.length_toList, String.length_append, String.length_append] at size
    rw [List.length_map, List.length_cons] at long
    rw [parse?, text]
    generalize List.length _ = count at size ⊢
    obtain ⟨extra, fuel⟩ : ∃ extra, 2 * count + 2 = extra + 1 + 2 * (entries.length + 1) + 1 :=
      ⟨2 * count - 2 * (entries.length + 1), by omega⟩
    simp only [fuel, readFrom_open, run]
    rfl

theorem row_unique {members : List (List Char × RawJson)} {one other : Row}
    (first : DenoteEntries members one.entries) (second : DenoteEntries members other.entries) :
    one = other :=
  Row.ext_entries (first.unique second)

end Rows

end RawJson

end Medals
