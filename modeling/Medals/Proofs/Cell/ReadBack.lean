import Medals.Csv.Reader

/-!
# Cells and their written form

`Cell.parseCell_plainText` says for which cells of a column the plain text is parsed to the cell
again: missing cells, integers where no other kind is declared, and texts that are not taken for
something else. `Cell.ReadsBack` is that condition.
-/

namespace Medals

namespace Numeral

/-- The digits of a number are digits. -/
theorem isDigit_of_mem_toDigits {number : Nat} {c : Char} (member : c ∈ Nat.toDigits 10 number) :
    isDigit c = true :=
  Nat.isDigit_of_mem_toDigits (by decide) (by decide) member

/-- A number has a first digit. -/
theorem exists_toDigits_eq_cons (number : Nat) :
    ∃ c rest, Nat.toDigits 10 number = c :: rest ∧ isDigit c = true := by
  obtain ⟨c, rest, digits⟩ :=
    List.exists_cons_of_ne_nil (Nat.toDigits_ne_nil (b := 10) (n := number))
  exact ⟨c, rest, digits, isDigit_of_mem_toDigits (digits ▸ List.mem_cons_self)⟩

/-- The digits of a number are read as the number. -/
theorem natural?_toDigits (value : Nat) : natural? (Nat.toDigits 10 value) = some value := by
  have digits : (Nat.toDigits 10 value).all isDigit = true :=
    List.all_eq_true.mpr fun _ => isDigit_of_mem_toDigits
  rw [natural?, if_pos ⟨Nat.toDigits_ne_nil, digits⟩]
  exact congrArg some Nat.ofDigitChars_ten_toDigits

/-- A run of digits has no sign to split off. -/
theorem splitSign_of_isDigit {c : Char} {rest : List Char} (digit : isDigit c = true) :
    splitSign (c :: rest) = (false, c :: rest) := by
  have notMinus : c ≠ '-' := by rintro rfl; revert digit; decide
  have notPlus : c ≠ '+' := by rintro rfl; revert digit; decide
  unfold splitSign
  split <;> simp_all

end Numeral

section Integers

/-- A written integer is an optional minus sign and digits. -/
theorem toList_integerText (value : Int) :
    (integerText value).toList =
      (if value < 0 then ['-'] else []) ++ Nat.toDigits 10 value.natAbs := by
  unfold integerText
  split <;> simp [Nat.toList_repr]

theorem Numeral.integer?_integerText (value : Int) :
    Numeral.integer? (integerText value).toList = some value := by
  rw [toList_integerText, Numeral.integer?]
  by_cases negative : value < 0
  · rw [if_pos negative, List.singleton_append, Numeral.splitSign]
    have opposite : -(value.natAbs : Int) = value := by omega
    simp only [Numeral.natural?_toDigits, if_true]
    exact congrArg some opposite
  · obtain ⟨c, rest, digits, digit⟩ := Numeral.exists_toDigits_eq_cons value.natAbs
    have same : (value.natAbs : Int) = value := by omega
    rw [if_neg negative, List.nil_append, digits, Numeral.splitSign_of_isDigit digit, ← digits]
    simp only [Numeral.natural?_toDigits, Bool.false_eq_true, if_false]
    exact congrArg some same

/-- A written 64-bit integer is read as itself. -/
theorem readInt64?_integerText (value : Int64) :
    readInt64? (integerText value.toInt) = some value := by
  have bounds : Int64.minValue.toInt ≤ value.toInt ∧ value.toInt ≤ Int64.maxValue.toInt :=
    ⟨value.minValue_le_toInt, value.toInt_le⟩
  rw [readInt64?, Numeral.integer?_integerText]
  simp only [if_pos bounds, Int64.ofInt_toInt]

/-- Neither a minus sign nor a digit is blank. -/
theorem isBlank_of_mem_integerText {value : Int} {c : Char}
    (member : c ∈ (integerText value).toList) : isBlank c = false := by
  rw [toList_integerText, List.mem_append] at member
  rcases member with sign | digit
  · obtain rfl : c = '-' := by
      split at sign <;> simp_all
    decide
  · have bounds : 48 ≤ c.toNat ∧ c.toNat ≤ 57 := by
      have found : c.isDigit = true := Numeral.isDigit_of_mem_toDigits digit
      simp only [Char.isDigit, Bool.and_eq_true, decide_eq_true_eq, UInt32.le_iff_toNat_le,
        ge_iff_le] at found
      exact found
    simp only [isBlank, Bool.or_eq_false_iff, Bool.and_eq_false_iff, decide_eq_false_iff_not,
      beq_eq_false_iff_ne]
    omega

theorem trimChars_of_noBlank {chars : List Char} (noBlank : ∀ c ∈ chars, isBlank c = false) :
    trimChars chars = chars := by
  have front : ∀ others : List Char, (∀ c ∈ others, isBlank c = false) →
      others.dropWhile isBlank = others := by
    intro others none
    cases others with
    | nil => rfl
    | cons c rest => rw [List.dropWhile_cons_of_neg (by simp [none c List.mem_cons_self])]
  rw [trimChars, front chars noBlank, front chars.reverse (by simpa using noBlank),
    List.reverse_reverse]

theorem trimmed_integerText (value : Int) : trimmed (integerText value) = integerText value := by
  rw [trimmed, trimChars_of_noBlank fun _ => isBlank_of_mem_integerText, String.ofList_toList]

theorem looksNumeric_integerText (value : Int) :
    looksNumeric (integerText value).toList = true := by
  rw [toList_integerText]
  by_cases negative : value < 0
  · rw [if_pos negative]
    rfl
  · obtain ⟨c, rest, digits, digit⟩ := Numeral.exists_toDigits_eq_cons value.natAbs
    rw [if_neg negative, List.nil_append, digits]
    simp [looksNumeric, digit]

end Integers

namespace Cell

/-- The text stands for a missing cell: it is blank, or a null token up to blanks around it and the
case of ASCII letters. -/
def Vanishes (nullTokens : List String) (text : String) : Prop :=
  trimmed text = "" ∨ ∃ token ∈ nullTokens, asciiLowered token = asciiLowered (trimmed text)

/-- The written form of the cell is parsed to the cell again in a column of the declared kind. -/
def ReadsBack (nullTokens : List String) (declared? : Option CellKind) : Cell → Prop
  | missing => True
  | integer value =>
    ¬ Vanishes nullTokens (integerText value.toInt) ∧
      (declared? = none ∨ declared? = some .integer)
  | text value =>
    ¬ Vanishes nullTokens value ∧
      (declared? = some .text ∨ (declared? = none ∧ infer value = text value))
  | number _ => False

instance (nullTokens : List String) : DecidablePred (Vanishes nullTokens) := fun _ =>
  inferInstanceAs (Decidable (_ ∨ _))

instance (nullTokens : List String) (declared? : Option CellKind) :
    DecidablePred (ReadsBack nullTokens declared?)
  | missing => inferInstanceAs (Decidable True)
  | integer _ => inferInstanceAs (Decidable (_ ∧ (_ ∨ _)))
  | text _ => inferInstanceAs (Decidable (_ ∧ (_ ∨ (_ ∧ _))))
  | number _ => inferInstanceAs (Decidable False)

theorem parseCell_of_vanishes {nullTokens : List String} {declared? : Option CellKind}
    {raw : String} (vanishes : Vanishes nullTokens raw) :
    parseCell nullTokens declared? raw = .missing := by
  unfold parseCell
  refine if_pos (vanishes.imp_right ?_)
  rintro ⟨token, member, same⟩
  exact List.any_eq_true.mpr ⟨token, member, by simp [eqIgnoringAsciiCase, same]⟩

theorem parseCell_of_not_vanishes {nullTokens : List String} {declared? : Option CellKind}
    {raw : String} (stays : ¬ Vanishes nullTokens raw) :
    parseCell nullTokens declared? raw =
      match declared? with
      | some kind => parseAs raw kind
      | none => infer raw := by
  unfold parseCell
  refine if_neg fun missing => stays (missing.imp_right fun found => ?_)
  obtain ⟨token, member, same⟩ := List.any_eq_true.mp found
  exact ⟨token, member, by simpa [eqIgnoringAsciiCase] using same⟩

/-- The written form of an integer is an integer wherever no other kind is declared. -/
theorem infer_integerText (value : Int64) :
    infer (integerText value.toInt) = .integer value := by
  simp only [infer, trimmed_integerText, looksNumeric_integerText, readInt64?_integerText, if_true]

theorem parseAs_integerText (value : Int64) :
    parseAs (integerText value.toInt) .integer = .integer value := by
  unfold parseAs
  simp only [trimmed_integerText, readInt64?_integerText]

/-- A cell that meets the condition is parsed back from its written form. -/
theorem parseCell_plainText {nullTokens : List String} {declared? : Option CellKind} {cell : Cell}
    (readsBack : cell.ReadsBack nullTokens declared?) :
    parseCell nullTokens declared? cell.plainText = cell := by
  cases cell with
  | missing => exact parseCell_of_vanishes (.inl (by decide))
  | integer value =>
    obtain ⟨stays, rfl | rfl⟩ := readsBack
    · exact (parseCell_of_not_vanishes stays).trans (infer_integerText value)
    · exact (parseCell_of_not_vanishes stays).trans (parseAs_integerText value)
  | number => exact readsBack.elim
  | text value =>
    obtain ⟨stays, rfl | ⟨rfl, inferred⟩⟩ := readsBack
    · exact parseCell_of_not_vanishes stays
    · exact (parseCell_of_not_vanishes stays).trans inferred

end Cell

end Medals
