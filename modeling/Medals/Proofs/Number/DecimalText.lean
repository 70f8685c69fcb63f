import Medals.Cell.Parse
import Medals.Proofs.Json.Numbers
import Medals.Proofs.Number.Rounding

/-!
# Numbers in decimal notation

`DecimalText` is the grammar of the number texts: a sign, digits around a point and a power of ten.
Its number is exact. A finite number is read from such texts only
(`DecimalText.exists_of_readDouble?`), and what is read is the double nearest to the number
(`DecimalText.readDouble?_eq`), as long as the digits of the text do not make up for a power of ten
beyond 16 bits.
-/

namespace Medals

/-- A sign as it is written. -/
inductive WrittenSign where
  | absent
  | plus
  | minus
deriving DecidableEq

namespace WrittenSign

def chars : WrittenSign → List Char
  | absent => []
  | plus => ['+']
  | minus => ['-']

def negative : WrittenSign → Bool
  | minus => true
  | _ => false

/-- A sign is split off what begins without one. -/
theorem splitSign_chars (sign : WrittenSign) {rest : List Char}
    (unsigned : ∀ c ∈ rest.head?, c ≠ '-' ∧ c ≠ '+') :
    Numeral.splitSign (sign.chars ++ rest) = (sign.negative, rest) := by
  cases sign with
  | plus | minus => rfl
  | absent =>
    cases rest with
    | nil => rfl
    | cons c rest =>
      obtain ⟨notMinus, notPlus⟩ := unsigned c rfl
      rw [chars, List.nil_append, Numeral.splitSign]
      · rfl
      · rintro _ ⟨⟩
        exact notMinus rfl
      · rintro _ ⟨⟩
        exact notPlus rfl

theorem exists_of_splitSign (chars : List Char) :
    ∃ sign : WrittenSign, chars = sign.chars ++ (Numeral.splitSign chars).2 ∧
      (Numeral.splitSign chars).1 = sign.negative := by
  unfold Numeral.splitSign
  split
  · exact ⟨minus, rfl, rfl⟩
  · exact ⟨plus, rfl, rfl⟩
  · exact ⟨absent, rfl, rfl⟩

end WrittenSign

/-- A power of ten behind an `e`, with at least one digit. -/
structure WrittenPower where
  capital : Bool
  sign : WrittenSign
  digits : List Char
  nonempty : digits ≠ []
  isDigit : ∀ c ∈ digits, Numeral.isDigit c = true

namespace WrittenPower

def chars (power : WrittenPower) : List Char :=
  (if power.capital then 'E' else 'e') :: (power.sign.chars ++ power.digits)

def value (power : WrittenPower) : Int :=
  if power.sign.negative then -(Numeral.digitsValue power.digits : Int)
  else Numeral.digitsValue power.digits

end WrittenPower

/-- A number in decimal notation: a sign, digits with an optional point, at least one digit in all,
and an optional power of ten. -/
structure DecimalText where
  sign : WrittenSign
  whole : List Char
  fraction? : Option (List Char)
  power? : Option WrittenPower
  whole_isDigit : ∀ c ∈ whole, Numeral.isDigit c = true
  fraction_isDigit : ∀ digits ∈ fraction?, ∀ c ∈ digits, Numeral.isDigit c = true
  nonempty : whole ++ fraction?.getD [] ≠ []

namespace DecimalText

def fractionChars : Option (List Char) → List Char
  | some digits => '.' :: digits
  | none => []

def powerChars : Option WrittenPower → List Char
  | some power => power.chars
  | none => []

/-- The text without its sign. -/
def body (written : DecimalText) : List Char :=
  written.whole ++ (fractionChars written.fraction? ++ powerChars written.power?)

def chars (written : DecimalText) : List Char :=
  written.sign.chars ++ written.body

/-- All digits, those of the power of ten apart. -/
def digits (written : DecimalText) : List Char :=
  written.whole ++ written.fraction?.getD []

/-- The power of ten that is written, and zero without one. -/
def power (written : DecimalText) : Int :=
  (written.power?.map WrittenPower.value).getD 0

/-- The size of the number, its sign aside. -/
def size (written : DecimalText) : ℚ :=
  Numeral.digitsValue written.digits *
    10 ^ (written.power - (written.fraction?.getD []).length)

/-- The number that is written. -/
def value (written : DecimalText) : ℚ :=
  Double.signed written.sign.negative written.size

theorem size_nonneg (written : DecimalText) : 0 ≤ written.size := by
  unfold size
  positivity

/-- The power of ten has at most 16 bits, or the digits are too few to make up for it. -/
def Legible (written : DecimalText) : Prop :=
  written.power.natAbs < 0x10000 ∨ written.digits.length ≤ 65000

end DecimalText

namespace Numeral

/-- Digits are passed over only behind a value beyond 16 bits. -/
theorem powerValue_cases (digits : List Char) :
    powerValue digits = digitsValue digits ∨
      0x10000 ≤ powerValue digits ∧ 0x10000 ≤ digitsValue digits := by
  induction digits using List.reverseRecOn with
  | nil => exact .inl rfl
  | append_singleton digits c ih =>
    have last : digitsValue (digits ++ [c]) = 10 * digitsValue digits + (c.toNat - '0'.toNat) := by
      simp [digitsValue]
    have lastPower : powerValue (digits ++ [c]) =
        if powerValue digits < 0x10000 then 10 * powerValue digits + (c.toNat - '0'.toNat)
        else powerValue digits := by
      simp [powerValue]
    rw [last, lastPower]
    rcases ih with same | ⟨far, wide⟩
    · rw [same]
      split
      · exact .inl rfl
      · right
        omega
    · right
      rw [if_neg (by omega)]
      omega

/-- A run of digits is less than the power of ten of its length. -/
theorem digitsValue_lt {digits : List Char} (allDigits : ∀ c ∈ digits, isDigit c = true) :
    digitsValue digits < 10 ^ digits.length := by
  induction digits using List.reverseRecOn with
  | nil => exact Nat.one_pos
  | append_singleton digits c ih =>
    have shorter := ih fun c member => allDigits c (List.mem_append_left _ member)
    have digit : c.toNat - '0'.toNat < 10 := by
      have found := allDigits c (List.mem_append_right _ List.mem_cons_self)
      simp only [isDigit, Bool.and_eq_true, decide_eq_true_eq, Char.le_def,
        UInt32.le_iff_toNat_le] at found
      have top : c.toNat ≤ 57 := found.2
      have zero : '0'.toNat = 48 := by decide
      omega
    have last : digitsValue (digits ++ [c]) = 10 * digitsValue digits + (c.toNat - '0'.toNat) := by
      simp [digitsValue]
    rw [last, List.length_append, List.length_singleton, Nat.pow_succ]
    omega

section Unsigned

variable {whole fraction rest : List Char} (wholeDigits : ∀ c ∈ whole, isDigit c = true)
  (ends : ∀ c ∈ rest.head?, isDigit c = false ∧ c ≠ '.')

include wholeDigits ends

/-- Without a point all digits stand in front of the power of ten. -/
theorem unsigned?_of_whole (negative : Bool) (nonempty : whole ≠ []) :
    unsigned? negative (whole ++ rest) =
      (power? rest).map fun power => ⟨negative, digitsValue whole, power⟩ := by
  obtain ⟨taken, dropped⟩ := takeWhile_digits wholeDigits fun c member => (ends c member).1
  unfold unsigned?
  rw [taken, dropped]
  dsimp only
  split
  · exact absurd rfl (ends '.' rfl).2
  · rw [if_neg (fun none => nonempty none.1), List.append_nil]
    simp

/-- A point is followed by the digits of the fraction. -/
theorem unsigned?_of_fraction (negative : Bool)
    (fractionDigits : ∀ c ∈ fraction, isDigit c = true) (nonempty : whole ++ fraction ≠ []) :
    unsigned? negative (whole ++ '.' :: (fraction ++ rest)) =
      (power? rest).map fun power =>
        ⟨negative, digitsValue (whole ++ fraction), power - fraction.length⟩ := by
  have point : ∀ c ∈ ('.' :: (fraction ++ rest)).head?, isDigit c = false := by
    rintro _ ⟨⟩
    decide
  obtain ⟨taken, dropped⟩ := takeWhile_digits wholeDigits point
  obtain ⟨fractionTaken, fractionDropped⟩ :=
    takeWhile_digits fractionDigits fun c member => (ends c member).1
  unfold unsigned?
  simp only [taken, dropped, fractionTaken, fractionDropped]
  rw [if_neg (fun none => nonempty (by rw [none.1, none.2]; rfl))]

end Unsigned

end Numeral

namespace DecimalText

/-- The power of ten as it is read. -/
def readPower (written : DecimalText) : Int :=
  (written.power?.map fun power =>
    if power.sign.negative then -(Numeral.powerValue power.digits : Int)
    else Numeral.powerValue power.digits).getD 0

/-- The number as it is read. -/
def numeral (written : DecimalText) : Numeral :=
  ⟨written.sign.negative, Numeral.digitsValue written.digits,
    written.readPower - (written.fraction?.getD []).length⟩

section Reading

variable (written : DecimalText)

theorem power?_powerChars :
    Numeral.power? (powerChars written.power?) = some written.readPower := by
  unfold readPower
  cases written.power? with
  | none => rfl
  | some power =>
    obtain ⟨capital, sign, digits, nonempty, allDigits⟩ := power
    have unsigned : ∀ c ∈ digits.head?, c ≠ '-' ∧ c ≠ '+' := by
      intro c member
      have digit := allDigits c (List.mem_of_mem_head? member)
      constructor <;> rintro rfl <;> revert digit <;> decide
    have letter : (if capital = true then 'E' else 'e') = 'e' ∨
        (if capital = true then 'E' else 'e') = 'E' := by
      cases capital
      · exact .inl rfl
      · exact .inr rfl
    simp only [powerChars, WrittenPower.chars, Numeral.power?,
      WrittenSign.splitSign_chars sign unsigned]
    rw [if_pos ⟨letter, nonempty, List.all_eq_true.mpr allDigits⟩]
    rfl

/-- What stands behind the digits in front of the point is no digit. -/
theorem ends_powerChars (c : Char) (member : c ∈ (powerChars written.power?).head?) :
    Numeral.isDigit c = false ∧ c ≠ '.' := by
  cases given : written.power? with
  | none => simp [given, powerChars] at member
  | some power =>
    obtain rfl : (if power.capital then 'E' else 'e') = c := by
      simpa [given, powerChars, WrittenPower.chars] using member
    split <;> decide

/-- A number in decimal notation is read part by part. -/
theorem unsigned?_body :
    Numeral.unsigned? written.sign.negative written.body = some written.numeral := by
  have power := power?_powerChars written
  have behind := ends_powerChars written
  have digits := written.fraction_isDigit
  have some := written.nonempty
  unfold body numeral DecimalText.digits
  cases given : written.fraction? with
  | none =>
    rw [given, Option.getD_none, List.append_nil] at some
    rw [fractionChars, List.nil_append,
      Numeral.unsigned?_of_whole written.whole_isDigit behind _ some, power]
    simp
  | some run =>
    rw [given, Option.getD_some] at some
    rw [fractionChars, List.cons_append,
      Numeral.unsigned?_of_fraction written.whole_isDigit behind _ (digits run given) some, power]
    rfl

/-- Behind the sign a number begins with a digit or with the point. -/
theorem exists_body_eq_cons :
    ∃ first rest, written.body = first :: rest ∧ (Numeral.isDigit first = true ∨ first = '.') := by
  have some := written.nonempty
  unfold body
  cases digits : written.whole with
  | cons first more =>
    have digit := written.whole_isDigit first (by rw [digits]; exact List.mem_cons_self)
    exact ⟨first, _, rfl, .inl digit⟩
  | nil =>
    rw [digits, List.nil_append] at some
    cases given : written.fraction? with
    | none => exact absurd (by rw [given]; rfl) some
    | some run => exact ⟨'.', _, rfl, .inr rfl⟩

theorem head_body : ∀ c ∈ written.body.head?, c ≠ '-' ∧ c ≠ '+' := by
  obtain ⟨first, rest, body, found⟩ := exists_body_eq_cons written
  rw [body]
  rintro _ ⟨⟩
  constructor <;> rintro rfl <;> revert found <;> decide

theorem looksNumeric_chars : looksNumeric written.chars = true := by
  obtain ⟨first, rest, body, found⟩ := exists_body_eq_cons written
  rw [chars, body]
  cases written.sign with
  | plus | minus => rfl
  | absent =>
    rcases found with digit | point
    · simp [WrittenSign.chars, looksNumeric, digit]
    · simp [WrittenSign.chars, looksNumeric, point]

/-- A text in decimal notation is read as its numeral. -/
theorem readDouble?_of_chars {text : String} (spelled : text.toList = written.chars) :
    readDouble? text = some written.numeral.toDouble := by
  unfold readDouble?
  rw [spelled, chars, written.sign.splitSign_chars (head_body written)]
  dsimp only
  rw [unsigned?_body written]

end Reading

section Converse

theorem exists_of_power? {chars : List Char} {power : Int}
    (read : Numeral.power? chars = some power) : ∃ power?, chars = powerChars power? := by
  cases chars with
  | nil => exact ⟨none, rfl⟩
  | cons letter rest =>
    obtain ⟨sign, spelled, -⟩ := WrittenSign.exists_of_splitSign rest
    unfold Numeral.power? at read
    dsimp only at read
    split at read
    · next proper =>
      obtain ⟨capital, found⟩ : ∃ capital : Bool, letter = if capital then 'E' else 'e' := by
        rcases proper.1 with small | great
        · exact ⟨false, small⟩
        · exact ⟨true, great⟩
      refine ⟨some ⟨capital, sign, (Numeral.splitSign rest).2, proper.2.1,
        List.all_eq_true.mp proper.2.2⟩, ?_⟩
      rw [powerChars, WrittenPower.chars, ← spelled, ← found]
    · exact absurd read nofun

/-- What is read as a numeral is in decimal notation. -/
theorem exists_of_unsigned? (sign : WrittenSign) {chars : List Char} {numeral : Numeral}
    (read : Numeral.unsigned? sign.negative chars = some numeral) :
    ∃ written : DecimalText, written.sign = sign ∧ written.body = chars := by
  have runs : ∀ run : List Char,
      run.takeWhile Numeral.isDigit ++ run.dropWhile Numeral.isDigit = run :=
    fun _ => List.takeWhile_append_dropWhile
  have digits : ∀ run : List Char, ∀ c ∈ run.takeWhile Numeral.isDigit, Numeral.isDigit c = true :=
    fun _ _ member => List.mem_takeWhile_imp member
  have parts := runs chars
  have wholeDigits := digits chars
  unfold Numeral.unsigned? at read
  generalize chars.takeWhile Numeral.isDigit = whole at *
  generalize chars.dropWhile Numeral.isDigit = behind at *
  dsimp only at read
  split at read
  · next rest =>
    dsimp only at read
    split at read
    · exact absurd read nofun
    · next some =>
      obtain ⟨power, readPower, -⟩ := Option.map_eq_some_iff.mp read
      obtain ⟨power?, spelled⟩ := exists_of_power? readPower
      refine ⟨⟨sign, whole, Option.some (rest.takeWhile Numeral.isDigit), power?, wholeDigits, ?_,
        fun none => some (List.append_eq_nil_iff.mp none)⟩, rfl, ?_⟩
      · rintro _ ⟨⟩
        exact digits rest
      · rw [body, ← spelled, ← parts, fractionChars, List.cons_append, runs]
  · dsimp only at read
    split at read
    · exact absurd read nofun
    · next some =>
      obtain ⟨power, readPower, -⟩ := Option.map_eq_some_iff.mp read
      obtain ⟨power?, spelled⟩ := exists_of_power? readPower
      refine ⟨⟨sign, whole, Option.none, power?, wholeDigits, nofun,
        fun none => some (List.append_eq_nil_iff.mp none)⟩, rfl, ?_⟩
      rw [body, ← spelled, ← parts, fractionChars, List.nil_append]

/-- Finite numbers are read from texts in decimal notation only. -/
theorem exists_of_readDouble? {text : String} {x : Double} (read : readDouble? text = some x)
    (finite : x.isFinite = true) : ∃ written : DecimalText, text.toList = written.chars := by
  obtain ⟨sign, spelled, negative⟩ := WrittenSign.exists_of_splitSign text.toList
  unfold readDouble? at read
  dsimp only at read
  rw [negative] at read
  cases found : Numeral.unsigned? sign.negative (Numeral.splitSign text.toList).2 with
  | some numeral =>
    obtain ⟨written, rfl, body⟩ := exists_of_unsigned? sign found
    exact ⟨written, by rw [spelled, chars, body]⟩
  | none =>
    have word : ∀ sign, (Double.infinity sign).isFinite = false ∧
        (Double.quietNaN sign).isFinite = false := by decide
    simp only [found, Numeral.word?] at read
    split at read
    · obtain rfl := Option.some.inj read
      simp [word] at finite
    · split at read
      · obtain rfl := Option.some.inj read
        simp [word] at finite
      · exact absurd read nofun

/-- Integers are read from texts in decimal notation only. -/
theorem exists_of_readInt64? {text : String} {value : Int64}
    (read : readInt64? text = some value) :
    ∃ written : DecimalText, text.toList = written.chars := by
  obtain ⟨sign, spelled, negative⟩ := WrittenSign.exists_of_splitSign text.toList
  cases digits : Numeral.natural? (Numeral.splitSign text.toList).2 with
  | none => simp [readInt64?, Numeral.integer?, digits] at read
  | some number =>
    unfold Numeral.natural? at digits
    split at digits
    · next proper =>
      refine ⟨⟨sign, (Numeral.splitSign text.toList).2, none, none,
        List.all_eq_true.mp proper.2, fun run member => absurd member (Option.not_mem_none run), ?_⟩,
        ?_⟩
      · rw [Option.getD_none, List.append_nil]
        exact proper.1
      · simpa [chars, body, fractionChars, powerChars] using spelled
    · exact absurd digits.symm (Option.some_ne_none number)

end Converse

section Rounding

variable {written : DecimalText}

/-- Where the power of ten is not read as it is written, both are beyond 16 bits, with one sign. -/
theorem readPower_cases (written : DecimalText) :
    written.readPower = written.power ∨
      0x10000 ≤ written.readPower ∧ 0x10000 ≤ written.power ∨
      written.readPower ≤ -0x10000 ∧ written.power ≤ -0x10000 := by
  unfold readPower power
  cases written.power? with
  | none => exact .inl rfl
  | some power =>
    simp only [Option.map_some, Option.getD_some, WrittenPower.value]
    rcases Numeral.powerValue_cases power.digits with same | ⟨far, wide⟩
    · exact .inl (by rw [same])
    · by_cases negative : power.sign.negative = true
      · rw [if_pos negative, if_pos negative]
        omega
      · rw [if_neg negative, if_neg negative]
        omega

/-- Digits that stand this far in front of the point make the number greater than all doubles. -/
theorem huge_of_power {significand places : Nat} {power : Int} (some : significand ≠ 0)
    (few : places ≤ 65000) (wide : 0x10000 ≤ power) :
    2 ^ 1024 ≤ (significand * 10 ^ (power - places) : ℚ) := by
  refine Numeral.huge_of_places (show 400 < power - places by omega) ?_
  have one : (1 : ℚ) ≤ significand := by exact_mod_cast Nat.one_le_iff_ne_zero.mpr some
  exact le_mul_of_one_le_left (by positivity) one

/-- Digits that stand this far behind the point make the number less than all doubles but zero. -/
theorem tiny_of_power {digits : List Char} {places : Nat} {power : Int}
    (allDigits : ∀ c ∈ digits, Numeral.isDigit c = true) (few : digits.length ≤ 65000)
    (wide : power ≤ -0x10000) :
    (Numeral.digitsValue digits * 10 ^ (power - places) : ℚ) ≤ 1 / 2 ^ 1075 := by
  refine Numeral.tiny_of_places (show digits.length + (power - places) < -400 by omega) ?_
  rw [zpow_add₀ (by norm_num), zpow_natCast]
  refine mul_le_mul_of_nonneg_right ?_ (by positivity)
  exact_mod_cast (Numeral.digitsValue_lt allDigits).le

theorem isDigit_of_mem_digits (written : DecimalText) :
    ∀ c ∈ written.digits, Numeral.isDigit c = true := by
  intro c member
  rcases List.mem_append.mp member with inWhole | inFraction
  · exact written.whole_isDigit c inWhole
  · cases given : written.fraction? with
    | none => simp [given] at inFraction
    | some digits =>
      rw [given] at inFraction
      exact written.fraction_isDigit digits given c inFraction

/-- What is read is the double nearest to the number that is written. -/
theorem isRounding_toDouble (legible : written.Legible) :
    Double.IsRounding written.numeral.toDouble written.sign.negative written.size := by
  have reading := Numeral.isRounding_toDouble written.numeral
  have allDigits := isDigit_of_mem_digits written
  have places : (written.fraction?.getD []).length ≤ written.digits.length := by
    rw [digits, List.length_append]
    exact Nat.le_add_left _ _
  rcases readPower_cases written with same | ⟨read, wide⟩ | ⟨read, wide⟩
  · have size : written.numeral.size = written.size := by
      rw [Numeral.size, numeral, same, DecimalText.size]
    exact size ▸ reading
  · have few : written.digits.length ≤ 65000 := legible.resolve_left (by omega)
    by_cases zero : Numeral.digitsValue written.digits = 0
    · have size : written.numeral.size = written.size := by
        simp [Numeral.size, numeral, DecimalText.size, zero]
      exact size ▸ reading
    · exact reading.transfer (.infinity _ (huge_of_power zero (places.trans few) read))
        (.infinity _ (huge_of_power zero (places.trans few) wide))
  · have few : written.digits.length ≤ 65000 := legible.resolve_left (by omega)
    exact reading.transfer (.zero _ (Numeral.size_nonneg _) (tiny_of_power allDigits few read))
      (.zero _ written.size_nonneg (tiny_of_power allDigits few wide))

end Rounding

section Integers

variable {written : DecimalText} {text : String}

/-- Digits with at most a sign: no point and no power of ten. -/
def Plain (written : DecimalText) : Prop :=
  written.fraction? = none ∧ written.power? = none

/-- The integer that a plain text writes. -/
theorem value_of_plain (plain : written.Plain) :
    written.value = ((if written.sign.negative then -(Numeral.digitsValue written.whole : Int)
      else Numeral.digitsValue written.whole : Int) : ℚ) := by
  have size : written.size = Numeral.digitsValue written.whole := by
    simp [DecimalText.size, digits, power, plain.1, plain.2]
  rw [value, Double.signed, size]
  split <;> push_cast <;> rfl

theorem natural?_body_of_plain (plain : written.Plain) :
    Numeral.natural? written.body = some (Numeral.digitsValue written.whole) := by
  have whole : written.body = written.whole := by
    simp [body, plain.1, plain.2, fractionChars, powerChars]
  have nonempty : written.whole ≠ [] := by
    have some := written.nonempty
    rwa [plain.1, Option.getD_none, List.append_nil] at some
  rw [whole, Numeral.natural?, if_pos ⟨nonempty, List.all_eq_true.mpr written.whole_isDigit⟩]

/-- A point and the letter of a power of ten are no digits. -/
theorem natural?_body_of_not_plain (broken : ¬ written.Plain) :
    Numeral.natural? written.body = none := by
  have other : ∃ c ∈ written.body, Numeral.isDigit c = false := by
    by_cases point : written.fraction? = none
    · obtain ⟨power, given⟩ := Option.ne_none_iff_exists'.mp fun none => broken ⟨point, none⟩
      refine ⟨if power.capital then 'E' else 'e', ?_, by split <;> decide⟩
      simp [body, given, powerChars, WrittenPower.chars]
    · obtain ⟨digits, given⟩ := Option.ne_none_iff_exists'.mp point
      refine ⟨'.', ?_, by decide⟩
      simp [body, given, fractionChars]
  obtain ⟨c, member, notDigit⟩ := other
  refine if_neg fun allDigits => ?_
  rw [List.all_eq_true.mp allDigits.2 c member] at notDigit
  exact absurd notDigit nofun

/-- The integers that are read are those of plain texts. -/
theorem readInt64?_eq_some_iff (spelled : text.toList = written.chars) {value : Int64} :
    readInt64? text = some value ↔ written.Plain ∧ written.value = value.toInt := by
  have signed : Numeral.integer? text.toList =
      (Numeral.natural? written.body).map fun digits : Nat =>
        if written.sign.negative then -(digits : Int) else digits := by
    rw [spelled, chars, Numeral.integer?, written.sign.splitSign_chars (head_body written)]
    dsimp only
    cases Numeral.natural? written.body <;> rfl
  unfold readInt64?
  rw [signed]
  by_cases plain : written.Plain
  · rw [natural?_body_of_plain plain, value_of_plain plain, Option.map_some, and_iff_right plain,
      Int.cast_inj]
    dsimp only
    generalize (if written.sign.negative then -(Numeral.digitsValue written.whole : Int)
      else Numeral.digitsValue written.whole) = whole
    split
    · next fits =>
      rw [Option.some.injEq, ← Int64.toInt_inj, Int64.toInt_ofInt_of_le fits.1
        (Int.lt_of_le_of_lt fits.2 (by decide))]
    · next outside =>
      refine iff_of_false (fun same => Option.some_ne_none value same.symm) ?_
      rintro rfl
      exact outside ⟨value.minValue_le_toInt, value.toInt_le⟩
  · rw [natural?_body_of_not_plain plain]
    exact iff_of_false (fun same => Option.some_ne_none value same.symm) fun both => plain both.1

end Integers

end DecimalText

end Medals
