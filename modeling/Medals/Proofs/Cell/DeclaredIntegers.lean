import Medals.Proofs.Cell.Identity
import Medals.Proofs.Number.DecimalText

/-!
# Integers of declared columns

A column of declared integers also takes numbers with a point or a power of ten. These are read as
doubles and clamped to 64 bits, so that the integer need not be the number that is written
(`Cell.parseAs_integer_not_exact`). `DecimalText.Strays` says for which texts it is not, and
`Cell.parseAs_integer_exact_iff` that all others are exact, with the keys that follow from it.
-/

namespace Medals

namespace Double

/-- The least 64-bit integer is a double. -/
theorem exists_exactValue_minValue :
    ∃ x : Double, x.exactValue = Int64.minValue.toInt := by
  have whole := (toInt?_eq_some_iff (x := ⟨0xc3e0000000000000⟩) (by decide)).mp
    (show (⟨0xc3e0000000000000⟩ : Double).toInt? = some Int64.minValue.toInt by decide +kernel)
  exact ⟨_, whole⟩

/-- When the clamped rounding of a 64-bit integer is the integer itself, the double has its key. The
greatest integer is rounded to `2 ^ 63`, which is clamped in both places. -/
theorem RoundsTo.key_of_clamp {x : Double} {value : Int64} {whole : Int}
    (rounds : RoundsTo x value.toInt) (same : x.exactValue = whole)
    (clamped : Int64.ofIntClamp whole = value) : x.key = .integer value := by
  have low : Int64.minValue.toInt = -2 ^ 63 := by decide
  have high : Int64.maxValue.toInt = 2 ^ 63 - 1 := by decide
  rw [key_eq_integer_iff rounds.finite]
  by_cases least : Int64.minValue.toInt ≤ whole
  · by_cases greatest : whole ≤ Int64.maxValue.toInt
    · rw [same, ← clamped, Int64.toInt_ofIntClamp least greatest]
      exact .inl rfl
    · have top : value = Int64.maxValue := by
        rw [← clamped, Int64.ofIntClamp, dif_pos least, dif_neg greatest]
      have near := rounds.nearest beyondInt64
      rw [exactValue_eq_beyond_iff.mpr rfl, same, top, high] at near
      have apart : (whole : ℚ) - (2 ^ 63 - 1 : Int) ≤ 1 := by
        refine (le_abs_self _).trans (near.trans_eq ?_)
        norm_num
      have bounded : whole - (2 ^ 63 - 1) ≤ 1 := by exact_mod_cast apart
      refine .inr ⟨exactValue_eq_beyond_iff.mp ?_, top⟩
      rw [same, show whole = 2 ^ 63 by omega]
      norm_num
  · have bottom : value = Int64.minValue := by
      rw [← clamped, Int64.ofIntClamp, dif_neg least]
    obtain ⟨least, exact⟩ := exists_exactValue_minValue
    exact .inl (rounds.of_exact (bottom ▸ exact))

end Double

namespace DecimalText

/-- The text is not a plain 64-bit integer, and the double nearest to its number is a whole number
that is not the number when it is clamped to 64 bits. -/
def Strays (written : DecimalText) : Prop :=
  (¬ ∃ value : Int64, written.Plain ∧ written.value = value.toInt) ∧
    ∃ x : Double, ∃ whole : Int, x.RoundsTo written.value ∧ x.exactValue = whole ∧
      ((Int64.ofIntClamp whole).toInt : ℚ) ≠ written.value

/-- Digits with a point and a zero behind them. -/
def withZero (whole : List Char) (nonempty : whole ≠ [])
    (digits : whole.all Numeral.isDigit = true) : DecimalText where
  sign := .absent
  whole := whole
  fraction? := some ['0']
  power? := none
  whole_isDigit := List.all_eq_true.mp digits
  fraction_isDigit := fun _ member => Option.some.inj member ▸ List.all_eq_true.mp rfl
  nonempty := List.append_ne_nil_of_left_ne_nil nonempty _

theorem value_withZero {whole : List Char} (nonempty : whole ≠ [])
    (digits : whole.all Numeral.isDigit = true) :
    (withZero whole nonempty digits).value = Numeral.digitsValue whole := by
  have run : Numeral.digitsValue (withZero whole nonempty digits).digits =
      Numeral.digitsValue whole * 10 := Numeral.digitsValue_append_zeros whole 1
  have positive : (withZero whole nonempty digits).sign.negative = false := rfl
  rw [value, Double.signed, positive, if_neg Bool.false_ne_true, size, run]
  simp [withZero, power]

end DecimalText

namespace Cell

/-- The cell that holds a number in a column of integers: missing unless it is a 64-bit integer. -/
def ofNumber (number : ℚ) : Cell :=
  if number.den = 1 ∧ Int64.minValue.toInt ≤ number.num ∧ number.num ≤ Int64.maxValue.toInt then
    integer (Int64.ofInt number.num)
  else missing

theorem ofNumber_toInt (value : Int64) : ofNumber (value.toInt : ℚ) = integer value := by
  have bounds : Int64.minValue.toInt ≤ value.toInt ∧ value.toInt ≤ Int64.maxValue.toInt :=
    ⟨value.minValue_le_toInt, value.toInt_le⟩
  rw [ofNumber, Rat.den_intCast, Rat.num_intCast, if_pos ⟨rfl, bounds⟩, Int64.ofInt_toInt]

theorem ofNumber_of_forall_ne {number : ℚ} (other : ∀ value : Int64, number ≠ value.toInt) :
    ofNumber number = missing := by
  refine if_neg fun ⟨whole, low, high⟩ => other (Int64.ofInt number.num) ?_
  rw [Int64.toInt_ofInt_of_le low (Int.lt_of_le_of_lt high (by decide)),
    Rat.coe_int_num_of_den_eq_one whole]

/-- In a column of integers nothing else is found. -/
theorem parseAs_integer_cases (raw : String) :
    parseAs raw .integer = missing ∨ ∃ value, parseAs raw .integer = integer value := by
  unfold parseAs
  dsimp only
  split
  · exact .inr ⟨_, rfl⟩
  · split
    · exact .inr ⟨_, rfl⟩
    · exact .inl rfl

/-- Infinities and what is no number at all are missing. -/
theorem parseAs_of_no_number (raw : String)
    (none : ∀ written : DecimalText, (trimmed raw).toList ≠ written.chars) :
    parseAs raw .integer = missing := by
  have noInteger : readInt64? (trimmed raw) = Option.none := by
    refine Option.eq_none_iff_forall_ne_some.mpr fun value read => ?_
    obtain ⟨written, spelled⟩ := DecimalText.exists_of_readInt64? read
    exact none written spelled
  have noNumber : readFinite? (trimmed raw) = Option.none := by
    refine Option.eq_none_iff_forall_ne_some.mpr fun x read => ?_
    obtain ⟨found, finite⟩ := Option.filter_eq_some_iff.mp read
    obtain ⟨written, spelled⟩ := DecimalText.exists_of_readDouble? found finite
    exact none written spelled
  unfold parseAs
  simp only [noInteger, noNumber, Option.bind_none]

section Declared

variable {raw : String} {written : DecimalText} (spelled : (trimmed raw).toList = written.chars)

include spelled

theorem parseAs_of_plain {value : Int64} (plain : written.Plain)
    (same : written.value = value.toInt) : parseAs raw .integer = integer value := by
  have read := (DecimalText.readInt64?_eq_some_iff spelled).mpr ⟨plain, same⟩
  unfold parseAs
  simp only [read]

/-- What is not a plain integer is rounded, and taken when the double is whole. -/
theorem parseAs_of_not_plain
    (other : ¬ ∃ value : Int64, written.Plain ∧ written.value = value.toInt) :
    parseAs raw .integer =
      ((if written.numeral.toDouble.isFinite then some written.numeral.toDouble
        else none).bind Double.toInt?).elim missing fun value =>
          integer (Int64.ofIntClamp value) := by
  have unread : readInt64? (trimmed raw) = none := by
    refine Option.eq_none_iff_forall_ne_some.mpr fun value read => ?_
    exact other ⟨value, (DecimalText.readInt64?_eq_some_iff spelled).mp read⟩
  unfold parseAs
  simp only [unread, readFinite?, DecimalText.readDouble?_of_chars written spelled,
    Option.filter_some]
  cases (if written.numeral.toDouble.isFinite then some written.numeral.toDouble
    else none).bind Double.toInt? <;> rfl

variable (legible : written.Legible)

include legible

/-- Then the cell is the clamped double to which the number rounds. -/
theorem parseAs_of_roundsTo
    (other : ¬ ∃ value : Int64, written.Plain ∧ written.value = value.toInt) {x : Double}
    {whole : Int} (rounds : x.RoundsTo written.value) (same : x.exactValue = whole) :
    parseAs raw .integer = integer (Int64.ofIntClamp whole) := by
  have reading := DecimalText.isRounding_toDouble legible
  have finite := reading.isFinite_of_roundsTo written.size_nonneg rounds
  have value := (reading.roundsTo written.size_nonneg finite).exactValue_eq rounds
  rw [parseAs_of_not_plain spelled other, if_pos finite, Option.bind_some,
    (Double.toInt?_eq_some_iff finite).mpr (value.trans same), Option.elim_some]

/-- An integer comes from a plain text or from a whole double. -/
theorem parseAs_eq_integer_cases {value : Int64} (parsed : parseAs raw .integer = integer value) :
    written.Plain ∧ written.value = value.toInt ∨
      (¬ ∃ value : Int64, written.Plain ∧ written.value = value.toInt) ∧
        ∃ whole : Int, written.numeral.toDouble.RoundsTo written.value ∧
          written.numeral.toDouble.exactValue = whole ∧ Int64.ofIntClamp whole = value := by
  by_cases found : ∃ value : Int64, written.Plain ∧ written.value = value.toInt
  · obtain ⟨number, plain, same⟩ := found
    rw [parseAs_of_plain spelled plain same] at parsed
    exact .inl ⟨plain, by rw [same, (integer.inj parsed)]⟩
  · have reading := DecimalText.isRounding_toDouble legible
    rw [parseAs_of_not_plain spelled found] at parsed
    cases taken : (if written.numeral.toDouble.isFinite then some written.numeral.toDouble
        else none).bind Double.toInt? with
    | none =>
      rw [taken, Option.elim_none] at parsed
      exact absurd parsed nofun
    | some whole =>
      rw [taken, Option.elim_some] at parsed
      obtain ⟨x, read, isWhole⟩ := Option.bind_eq_some_iff.mp taken
      split at read
      · next finite =>
        obtain rfl := Option.some.inj read
        exact .inr ⟨found, whole, reading.roundsTo written.size_nonneg finite,
          (Double.toInt?_eq_some_iff finite).mp isWhole, integer.inj parsed⟩
      · exact absurd read nofun

/-- A 64-bit integer is taken in every spelling, though it need not be taken as it is. -/
theorem exists_parseAs_of_toInt {value : Int64} (same : written.value = value.toInt) :
    ∃ taken, parseAs raw .integer = integer taken := by
  by_cases found : ∃ value : Int64, written.Plain ∧ written.value = value.toInt
  · obtain ⟨number, plain, isNumber⟩ := found
    exact ⟨number, parseAs_of_plain spelled plain isNumber⟩
  · have reading := DecimalText.isRounding_toDouble legible
    have bounded : written.size ≤ |Double.beyondInt64.exactValue| := by
      have low := Int64.minValue_le_toInt value
      have high := value.toInt_le
      have least : Int64.minValue.toInt = -2 ^ 63 := by decide
      have greatest : Int64.maxValue.toInt = 2 ^ 63 - 1 := by decide
      have within : |value.toInt| ≤ 2 ^ 63 := abs_le.mpr ⟨by omega, by omega⟩
      rw [← Double.abs_signed written.sign.negative written.size_nonneg]
      change |written.value| ≤ _
      rw [same, Double.exactValue_eq_beyond_iff.mpr rfl]
      exact_mod_cast within
    have finite := reading.isFinite_of_le written.size_nonneg
      (show Double.beyondInt64.isFinite = true by decide) bounded
    have rounds := reading.roundsTo written.size_nonneg finite
    change Double.RoundsTo _ written.value at rounds
    rw [same] at rounds
    obtain ⟨whole, isWhole⟩ := rounds.exists_whole
    rw [← same] at rounds
    exact ⟨_, parseAs_of_roundsTo spelled legible found rounds isWhole⟩

/-- The cell holds the number that is written, or is missing where that is no 64-bit integer, for
all texts that do not stray. -/
theorem parseAs_eq_ofNumber_iff :
    parseAs raw .integer = ofNumber written.value ↔ ¬ written.Strays := by
  constructor
  · rintro exact ⟨other, x, whole, rounds, isWhole, differs⟩
    rw [parseAs_of_roundsTo spelled legible other rounds isWhole] at exact
    by_cases fits : ∃ value : Int64, written.value = value.toInt
    · obtain ⟨value, same⟩ := fits
      rw [same, ofNumber_toInt, integer.injEq] at exact
      exact differs (by rw [exact, same])
    · rw [ofNumber_of_forall_ne (not_exists.mp fits)] at exact
      exact absurd exact nofun
  · intro stays
    rcases parseAs_integer_cases raw with none | ⟨value, parsed⟩
    · rw [none, ofNumber_of_forall_ne]
      intro value same
      obtain ⟨taken, parsed⟩ := exists_parseAs_of_toInt spelled legible same
      exact absurd (none.symm.trans parsed) nofun
    · rw [parsed]
      rcases parseAs_eq_integer_cases spelled legible parsed with
        ⟨-, same⟩ | ⟨other, whole, rounds, isWhole, clamped⟩
      · rw [same, ofNumber_toInt]
      · have same : ((Int64.ofIntClamp whole).toInt : ℚ) = written.value := by
          by_contra differs
          exact stays ⟨other, _, whole, rounds, isWhole, differs⟩
        rw [← same, clamped, ofNumber_toInt]

/-- Whole numbers up to `2 ^ 53` are taken as they are in every spelling. -/
theorem parseAs_of_exactBound {whole : Int} (bounded : whole.natAbs ≤ Double.exactBound)
    (same : written.value = whole) : parseAs raw .integer = ofNumber whole := by
  obtain ⟨exact, -⟩ := Double.exactValue_ofInt bounded
  have fits : Int64.minValue.toInt ≤ whole ∧ whole ≤ Int64.maxValue.toInt := by
    have least : Int64.minValue.toInt = -2 ^ 63 := by decide
    have greatest : Int64.maxValue.toInt = 2 ^ 63 - 1 := by decide
    simp only [Double.exactBound] at bounded
    omega
  rw [← same, parseAs_eq_ofNumber_iff spelled legible]
  rintro ⟨-, x, rounded, rounds, isRounded, differs⟩
  have equal := rounds.of_exact (exact.trans same.symm)
  rw [isRounded, same, Int.cast_inj] at equal
  rw [equal, Int64.toInt_ofIntClamp fits.1 fits.2] at differs
  exact differs same.symm

/-- An integer that is exact has the key of the text, and of every cell with the number. -/
theorem key_of_parseAs {value : Int64} (parsed : parseAs raw .integer = integer value)
    (exact : written.value = value.toInt) :
    (text raw).key = .integer value ∧
      ∀ cell : Cell, cell.exactValue? = some written.value → cell.key = .integer value := by
  constructor
  · have numeric : looksNumeric (trimmed raw).toList = true := by
      rw [spelled]
      exact written.looksNumeric_chars
    rcases parseAs_eq_integer_cases spelled legible parsed with
      ⟨plain, -⟩ | ⟨other, whole, rounds, isWhole, clamped⟩
    · have read := (DecimalText.readInt64?_eq_some_iff spelled).mpr ⟨plain, exact⟩
      simp only [key, numeric, read, if_true]
    · have unread : readInt64? (trimmed raw) = none := by
        refine Option.eq_none_iff_forall_ne_some.mpr fun value read => ?_
        exact other ⟨value, (DecimalText.readInt64?_eq_some_iff spelled).mp read⟩
      rw [exact] at rounds
      simp only [key, numeric, unread, DecimalText.readDouble?_of_chars written spelled, if_true,
        rounds.key_of_clamp isWhole clamped]
  · intro cell holds
    have one : (integer value).exactValue? = some (value.toInt : ℚ) := rfl
    exact ((key_eq_iff holds one).mpr (.inl exact))

end Declared

/-- A text that writes no number is missing. One that does is exact unless it strays, and then it is
its clamped rounding. Whole numbers up to `2 ^ 53` do not stray, and an exact integer has the key of
all exact readings. -/
theorem parseAs_integer_exact_iff (raw : String) :
    ((∀ written : DecimalText, (trimmed raw).toList ≠ written.chars) →
        parseAs raw .integer = missing) ∧
      ∀ written : DecimalText, (trimmed raw).toList = written.chars → written.Legible →
        (parseAs raw .integer = ofNumber written.value ↔ ¬ written.Strays) ∧
        (written.Strays → ∀ (x : Double) (whole : Int), x.RoundsTo written.value →
          x.exactValue = whole → parseAs raw .integer = integer (Int64.ofIntClamp whole)) ∧
        (∀ whole : Int, whole.natAbs ≤ Double.exactBound → written.value = whole →
          parseAs raw .integer = ofNumber whole) ∧
        ∀ value, parseAs raw .integer = integer value → written.value = value.toInt →
          (text raw).key = .integer value ∧
            ∀ cell : Cell, cell.exactValue? = some written.value → cell.key = .integer value := by
  refine ⟨parseAs_of_no_number raw, fun written spelled legible => ⟨?_, ?_, ?_, ?_⟩⟩
  · exact parseAs_eq_ofNumber_iff spelled legible
  · exact fun strays x whole rounds isWhole =>
      parseAs_of_roundsTo spelled legible strays.1 rounds isWhole
  · exact fun whole bounded same => parseAs_of_exactBound spelled legible bounded same
  · exact fun value parsed exact => key_of_parseAs spelled legible parsed exact

/-- A numeral whose fraction is zero is read as its integer, and a word as none. -/
theorem parseAs_integer_2012 :
    parseAs "2012.0" .integer = ofNumber 2012 ∧ parseAs "abc" .integer = missing := by
  constructor
  · have exact := (parseAs_integer_exact_iff "2012.0").2
      (.withZero ['2', '0', '1', '2'] (by decide) (by decide)) (by decide +kernel)
      (.inl (by decide))
    exact exact.2.2.1 2012 (by decide) (DecimalText.value_withZero _ _)
  · refine (parseAs_integer_exact_iff "abc").1 fun written spelled => ?_
    have numeric := written.looksNumeric_chars
    rw [← spelled] at numeric
    exact absurd numeric (by decide +kernel)

/-- A whole number beyond `2 ^ 53` is rounded, one beyond 64 bits is clamped and has another key
than its text, and a fraction next to a whole number is taken for it. -/
theorem parseAs_integer_not_exact :
    (∃ written : DecimalText, (trimmed "9007199254740993.0").toList = written.chars ∧
      written.value = (9007199254740993 : Nat)) ∧
    parseAs "9007199254740993.0" .integer = integer 9007199254740992 ∧
    parseAs "1e19" .integer = integer Int64.maxValue ∧
    (parseAs "1e19" .integer).key ≠ (text "1e19").key ∧
    parseAs "0.99999999999999999999" .integer = integer 1 := by
  have digits : Numeral.digitsValue "9007199254740993".toList = 9007199254740993 := by
    decide +kernel
  refine ⟨⟨.withZero "9007199254740993".toList (by decide +kernel) (by decide +kernel),
    by decide +kernel, ?_⟩, by decide +kernel⟩
  rw [DecimalText.value_withZero, digits]

end Cell

end Medals
