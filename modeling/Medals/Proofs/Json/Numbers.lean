import Medals.Json.Reader
import Medals.Proofs.Cell.ReadBack
import Medals.Proofs.Number.Interval

/-!
# Numbers in documents

A regular number is read back from its characters, whatever follows them
(`RawJson.readNumber_chars`). The writers write regular numbers only: integers without a fraction
and a power, and other numbers with one of the two (`RawNumber.exists_documentText`). The value of
what is written for a double is its shortest decimal, so that the number tells the double.
-/

namespace Medals

section Digits

/-- A run of digits ends in front of anything else. -/
theorem Numeral.takeWhile_digits {digits rest : List Char}
    (all : ∀ c ∈ digits, isDigit c = true) (ends : ∀ c ∈ rest.head?, isDigit c = false) :
    (digits ++ rest).takeWhile isDigit = digits ∧ (digits ++ rest).dropWhile isDigit = rest := by
  rw [List.takeWhile_append_of_pos all, List.dropWhile_append_of_pos all]
  cases rest with
  | nil => simp
  | cons c rest =>
    have stops : ¬ isDigit c = true := by simp [ends c rfl]
    rw [List.takeWhile_cons_of_neg stops, List.dropWhile_cons_of_neg stops, List.append_nil]
    exact ⟨rfl, rfl⟩

theorem Numeral.digitsValue_toDigits (number : Nat) :
    digitsValue (Nat.toDigits 10 number) = number :=
  Nat.ofDigitChars_ten_toDigits

/-- Zeros behind a run of digits scale it. -/
theorem Numeral.digitsValue_append_zeros (digits : List Char) (count : Nat) :
    digitsValue (digits ++ List.replicate count '0') = digitsValue digits * 10 ^ count := by
  have run := @Nat.ofDigitChars_append 10 digits (List.replicate count '0') 0
  rw [Nat.ofDigitChars_replicate_zero] at run
  exact run.trans (Nat.mul_comm _ _)

/-- Zeros in front of a run of digits do not count. -/
theorem Numeral.digitsValue_zeros_append (count : Nat) (digits : List Char) :
    digitsValue (List.replicate count '0' ++ digits) = digitsValue digits := by
  have run := @Nat.ofDigitChars_append 10 (List.replicate count '0') digits 0
  rw [Nat.ofDigitChars_replicate_zero] at run
  exact run

/-- A positive number is written without a zero in front. -/
theorem Numeral.head_toDigits_ne {number : Nat} (positive : 0 < number) :
    (Nat.toDigits 10 number).head? ≠ some '0' := by
  induction number using Nat.strongRecOn with
  | ind number ih =>
    by_cases small : number < 10
    · rw [Nat.toDigits_of_lt_base small]
      interval_cases number <;> decide
    · rw [Nat.toDigits_of_base_le (by decide) (Nat.le_of_not_lt small),
        List.head?_append_of_ne_nil _ Nat.toDigits_ne_nil]
      exact ih _ (by omega) (by omega)

end Digits

namespace RawNumber

/-- The characters of a fraction, with the point in front. -/
def fractionChars : Option (List Char) → List Char
  | some digits => '.' :: digits
  | none => []

/-- The characters of a power of ten, which always has a sign. -/
def powerChars : Option Int → List Char
  | some power => 'e' :: (if power < 0 then '-' else '+') :: Nat.toDigits 10 power.natAbs
  | none => []

def chars (number : RawNumber) : List Char :=
  (if number.negative then ['-'] else []) ++
    (number.whole ++ (fractionChars number.fraction? ++ powerChars number.power?))

/-- The parts are those of a number as documents have them: digits without a superfluous zero in
front, digits behind the point, and a power that the reader does not cut. -/
structure Regular (number : RawNumber) : Prop where
  whole_nonempty : number.whole ≠ []
  whole_digits : ∀ c ∈ number.whole, Numeral.isDigit c = true
  no_lead : number.whole.head? = some '0' → number.whole = ['0']
  fraction_nonempty : number.fraction? ≠ some []
  fraction_digits : ∀ digits ∈ number.fraction?, ∀ c ∈ digits, Numeral.isDigit c = true
  power_bounded : ∀ power ∈ number.power?, power.natAbs ≤ 0x7fffffff

/-- No character of a number comes next. -/
def Ends (rest : List Char) : Prop :=
  ∀ c ∈ rest.head?, Numeral.isDigit c = false ∧ c ≠ '.' ∧ c ≠ 'e' ∧ c ≠ 'E'

theorem Ends.of_head {c : Char} {rest : List Char}
    (apart : Numeral.isDigit c = false ∧ c ≠ '.' ∧ c ≠ 'e' ∧ c ≠ 'E') : Ends (c :: rest) := by
  rintro _ ⟨⟩
  exact apart

/-- Behind a fraction comes neither a digit nor a point. -/
theorem Ends.behind_fraction {rest : List Char} (ends : Ends rest) (power? : Option Int) :
    ∀ c ∈ (powerChars power? ++ rest).head?, Numeral.isDigit c = false ∧ c ≠ '.' := by
  cases power? with
  | none => exact fun c member => ⟨(ends c member).1, (ends c member).2.1⟩
  | some power =>
    rintro c ⟨⟩
    decide

/-- Behind the whole part comes no digit. -/
theorem Ends.behind_whole {rest : List Char} (ends : Ends rest) (fraction? : Option (List Char))
    (power? : Option Int) :
    ∀ c ∈ (fractionChars fraction? ++ (powerChars power? ++ rest)).head?,
      Numeral.isDigit c = false := by
  cases fraction? with
  | none => exact fun c member => (ends.behind_fraction power? c member).1
  | some run =>
    rintro c ⟨⟩
    decide

/-- The number that is written, its sign aside. -/
def magnitude (number : RawNumber) : ℚ :=
  Numeral.digitsValue (number.whole ++ number.fraction?.getD []) *
    10 ^ (number.power?.getD 0 - (number.fraction?.getD []).length)

/-- A regular number has no line end in it. -/
theorem Regular.newline_notMem {number : RawNumber} (regular : number.Regular) :
    '\n' ∉ number.chars := by
  have digits : ∀ {run : List Char}, (∀ c ∈ run, Numeral.isDigit c = true) → '\n' ∉ run :=
    fun all member => absurd (all '\n' member) (by decide)
  have fraction : '\n' ∉ fractionChars number.fraction? := by
    cases given : number.fraction? with
    | none => exact List.not_mem_nil
    | some run =>
      have notMem := digits (regular.fraction_digits run given)
      simp [fractionChars, notMem]
  have power : '\n' ∉ powerChars number.power? := by
    cases number.power? with
    | none => exact List.not_mem_nil
    | some power =>
      have notMem : '\n' ∉ Nat.toDigits 10 power.natAbs :=
        digits fun _ => Numeral.isDigit_of_mem_toDigits
      have sign : '\n' ≠ if power < 0 then '-' else '+' := by split <;> decide
      simp [powerChars, notMem, sign]
  have sign : '\n' ∉ if number.negative then ['-'] else [] := by split <;> decide
  simp [chars, sign, digits regular.whole_digits, fraction, power]

end RawNumber

namespace RawJson

open RawNumber

theorem readPower_powerChars {power : Int} (bounded : power.natAbs ≤ 0x7fffffff) {rest : List Char}
    (ends : Ends rest) :
    readPower ((if power < 0 then '-' else '+') :: (Nat.toDigits 10 power.natAbs ++ rest)) =
      some (power, rest) := by
  obtain ⟨taken, dropped⟩ := Numeral.takeWhile_digits
    (fun c member => Numeral.isDigit_of_mem_toDigits member) (fun c member => (ends c member).1)
  have sign : Numeral.splitSign
      ((if power < 0 then '-' else '+') :: (Nat.toDigits 10 power.natAbs ++ rest)) =
        (decide (power < 0), Nat.toDigits 10 power.natAbs ++ rest) := by
    split
    · next negative => simp [Numeral.splitSign, negative]
    · next positive => simp [Numeral.splitSign, positive]
  rw [readPower, sign]
  dsimp only
  rw [taken, dropped, if_neg Nat.toDigits_ne_nil, Numeral.digitsValue_toDigits,
    Nat.min_eq_left bounded]
  by_cases negative : power < 0
  · simp only [negative, decide_true, if_true]
    rw [show -(power.natAbs : Int) = power by omega]
  · simp only [negative, decide_false, Bool.false_eq_true, if_false]
    rw [show (power.natAbs : Int) = power by omega]

theorem readFraction_fractionChars {fraction? : Option (List Char)} (nonempty : fraction? ≠ some [])
    (digits : ∀ run ∈ fraction?, ∀ c ∈ run, Numeral.isDigit c = true) {rest : List Char}
    (ends : ∀ c ∈ rest.head?, Numeral.isDigit c = false ∧ c ≠ '.') :
    readFraction (fractionChars fraction? ++ rest) = some (fraction?, rest) := by
  cases fraction? with
  | none =>
    cases rest with
    | nil => rfl
    | cons c rest =>
      unfold readFraction
      split
      · next same =>
        exact absurd (List.cons.inj same).1 (ends c rfl).2
      · rfl
  | some run =>
    obtain ⟨taken, dropped⟩ := Numeral.takeWhile_digits (digits run rfl)
      (fun c member => (ends c member).1)
    have someDigits : run ≠ [] := fun none => nonempty (congrArg some none)
    rw [fractionChars, List.cons_append, readFraction, taken, dropped, if_neg someDigits]

/-- A regular number is read up to its end. -/
theorem readNumber_chars {number : RawNumber} (regular : number.Regular) {rest : List Char}
    (ends : Ends rest) : readNumber (number.chars ++ rest) = some (.number number, rest) := by
  obtain ⟨negative, whole, fraction?, power?⟩ := number
  have wholeNonempty : whole ≠ [] := regular.whole_nonempty
  have proper : ¬ (whole = [] ∨ (whole.head? = some '0' ∧ whole ≠ ['0'])) := by
    rintro (none | ⟨zero, more⟩)
    · exact wholeNonempty none
    · exact more (regular.no_lead zero)
  have wholeDigits : ∀ c ∈ whole, Numeral.isDigit c = true := regular.whole_digits
  obtain ⟨taken, dropped⟩ :=
    Numeral.takeWhile_digits wholeDigits (ends.behind_whole fraction? power?)
  have fraction : readFraction (fractionChars fraction? ++ (powerChars power? ++ rest)) =
      some (fraction?, powerChars power? ++ rest) :=
    readFraction_fractionChars regular.fraction_nonempty regular.fraction_digits
      (ends.behind_fraction power?)
  have letter : ∀ c ∈ rest.head?, ¬ (c = 'e' ∨ c = 'E') := by
    rintro c member (small | capital)
    · exact (ends c member).2.2.1 small
    · exact (ends c member).2.2.2 capital
  have ofMinus : ∀ body, (if negative then ['-'] else []) ++
      (whole ++ (fractionChars fraction? ++ (powerChars power? ++ rest))) = '-' :: body →
        negative = true ∧
          whole ++ (fractionChars fraction? ++ (powerChars power? ++ rest)) = body := by
    intro body minus
    cases negative with
    | true => exact ⟨rfl, (List.cons.inj minus).2⟩
    | false =>
      have first := congrArg List.head? minus
      rw [if_neg (by decide), List.nil_append, List.head?_append_of_ne_nil _ wholeNonempty] at first
      exact absurd (regular.whole_digits '-' (List.mem_of_head? first)) (by decide)
  unfold readNumber
  simp only [chars, List.append_assoc]
  split
  on_goal 1 =>
    rename_i body minus
    obtain ⟨rfl, rfl⟩ := ofMinus body minus
  on_goal 2 =>
    rename_i plain
    obtain rfl : negative = false :=
      Bool.eq_false_of_not_eq_true (by rintro rfl; exact plain _ rfl)
    simp only [Bool.false_eq_true, if_false, List.nil_append]
  all_goals
    simp only [taken, dropped, if_neg proper, fraction]
    cases power? with
    | none =>
      cases rest with
      | nil => rfl
      | cons c rest => simp [powerChars, letter c rfl]
    | some power =>
      simp [powerChars, readPower_powerChars (regular.power_bounded power rfl) ends]

end RawJson

namespace RawNumber

section Integers

/-- An integer as it is written. -/
def ofInt (value : Int) : RawNumber :=
  ⟨decide (value < 0), Nat.toDigits 10 value.natAbs, none, none⟩

theorem chars_ofInt (value : Int) : (ofInt value).chars = (integerText value).toList := by
  rw [toList_integerText]
  simp [chars, ofInt, fractionChars, powerChars]

theorem regular_ofInt (value : Int) : (ofInt value).Regular where
  whole_nonempty := Nat.toDigits_ne_nil
  whole_digits := fun _ member => Numeral.isDigit_of_mem_toDigits member
  no_lead zero := by
    rcases Nat.eq_zero_or_pos value.natAbs with none | positive
    · simp [ofInt, none]
    · exact absurd zero (Numeral.head_toDigits_ne positive)
  fraction_nonempty := nofun
  fraction_digits := nofun
  power_bounded := nofun

end Integers

section Decimals

/-- The number has a fraction or a power of ten, which an integer has not, and stands for a
magnitude with a sign. -/
structure Writes (number : RawNumber) (negative : Bool) (value : ℚ) : Prop where
  regular : number.Regular
  sign : number.negative = negative
  magnitude : number.magnitude = value
  broken : number.fraction? ≠ none ∨ number.power? ≠ none

theorem Writes.of_fraction (negative : Bool) (whole fraction : List Char) {value : ℚ}
    (wholeNonempty : whole ≠ []) (fractionNonempty : fraction ≠ [])
    (digits : ∀ c ∈ whole ++ fraction, Numeral.isDigit c = true)
    (lead : whole.head? = some '0' → whole = ['0'])
    (same : (Numeral.digitsValue (whole ++ fraction) : ℚ) * 10 ^ (-(fraction.length : Int)) =
      value) :
    Writes ⟨negative, whole, some fraction, none⟩ negative value where
  regular :=
    { whole_nonempty := wholeNonempty
      whole_digits := fun c member => digits c (List.mem_append_left _ member)
      no_lead := lead
      fraction_nonempty := fun none => fractionNonempty (Option.some.inj none)
      fraction_digits := by
        rintro run ⟨⟩ c member
        exact digits c (List.mem_append_right _ member)
      power_bounded := nofun }
  sign := rfl
  magnitude := by simpa [RawNumber.magnitude] using same
  broken := .inl nofun

theorem digits_of_mem_zeros {count : Nat} {c : Char} (member : c ∈ List.replicate count '0') :
    Numeral.isDigit c = true := by
  rw [List.eq_of_mem_replicate member]
  rfl

variable {decimal : Decimal} (negative : Bool)

/-- Without places behind the point, a zero is put there. -/
theorem exists_positional_of_whole (positive : 0 < decimal.digits) {count : Nat}
    (exponent : decimal.exponent = count) :
    ∃ number : RawNumber, number.Writes negative decimal.value ∧
      number.chars = (if negative then ['-'] else []) ++ (decimal.positional ++ ".0").toList := by
  refine ⟨_, .of_fraction negative (Nat.toDigits 10 decimal.digits ++ List.replicate count '0')
    ['0'] (by simp) (by simp) ?_ ?_ ?_, ?_⟩
  · intro c member
    rw [List.append_assoc, ← List.replicate_succ', List.mem_append] at member
    exact member.elim Numeral.isDigit_of_mem_toDigits digits_of_mem_zeros
  · rw [List.head?_append_of_ne_nil _ Nat.toDigits_ne_nil]
    exact fun zero => absurd zero (Numeral.head_toDigits_ne positive)
  · rw [List.append_assoc, ← List.replicate_succ', Numeral.digitsValue_append_zeros,
      Numeral.digitsValue_toDigits, Decimal.value, exponent, pow_succ]
    push_cast
    simp [mul_assoc]
  · simp [chars, fractionChars, powerChars, Decimal.positional, Decimal.zeros, exponent,
      Nat.toList_repr]

/-- With places behind the point, the digits are cut there, or completed by zeros in front. -/
theorem exists_positional_of_places (positive : 0 < decimal.digits) {places : Nat}
    (somePlaces : places ≠ 0) (exponent : decimal.exponent = -(places : Int)) :
    ∃ number : RawNumber, number.Writes negative decimal.value ∧
      number.chars = (if negative then ['-'] else []) ++ decimal.positional.toList := by
  have length : decimal.digits.repr.length = (Nat.toDigits 10 decimal.digits).length := by
    rw [← String.length_toList, Nat.toList_repr]
  have list := Nat.toList_repr (n := decimal.digits)
  have someDigits : Nat.toDigits 10 decimal.digits ≠ [] := Nat.toDigits_ne_nil
  have lead := Numeral.head_toDigits_ne positive
  have digits : ∀ c ∈ Nat.toDigits 10 decimal.digits, Numeral.isDigit c = true :=
    fun c member => Numeral.isDigit_of_mem_toDigits member
  have value := Numeral.digitsValue_toDigits decimal.digits
  generalize Nat.toDigits 10 decimal.digits = run at *
  by_cases small : run.length ≤ places
  · have zeros : ['0'] ++ (List.replicate (places - run.length) '0' ++ run) =
        List.replicate (1 + (places - run.length)) '0' ++ run := by
      rw [List.replicate_add, List.append_assoc]
      rfl
    refine ⟨_, .of_fraction negative ['0'] (List.replicate (places - run.length) '0' ++ run)
      (by simp) (by simp [someDigits]) ?_ (fun _ => rfl) ?_, ?_⟩
    · rw [zeros]
      exact fun c member => (List.mem_append.mp member).elim digits_of_mem_zeros (digits c)
    · rw [zeros, Numeral.digitsValue_zeros_append, value, Decimal.value, exponent,
        List.length_append, List.length_replicate, Nat.sub_add_cancel small]
    · simp [chars, fractionChars, powerChars, Decimal.positional, Decimal.zeros, exponent, list,
        length, small, somePlaces]
  · have split := List.take_append_drop (run.length - places) run
    refine ⟨_, .of_fraction negative (run.take (run.length - places))
      (run.drop (run.length - places)) ?_ ?_ ?_ ?_ ?_, ?_⟩
    · refine List.ne_nil_of_length_pos ?_
      rw [List.length_take]
      omega
    · refine List.ne_nil_of_length_pos ?_
      rw [List.length_drop]
      omega
    · rwa [split]
    · rw [List.head?_take, if_neg (by omega)]
      exact fun zero => absurd zero lead
    · rw [split, value, Decimal.value, exponent, List.length_drop, Nat.sub_sub_self (by omega)]
    · simp [chars, fractionChars, powerChars, Decimal.positional, exponent, list, length, small,
        somePlaces]

/-- The positional form of a decimal, completed to have a fraction. -/
theorem exists_positional (positive : 0 < decimal.digits) :
    ∃ number : RawNumber, number.Writes negative decimal.value ∧
      number.chars = (if negative then ['-'] else []) ++
        (decimal.positional ++ if 0 ≤ decimal.exponent then ".0" else "").toList := by
  by_cases whole : 0 ≤ decimal.exponent
  · obtain ⟨count, exponent⟩ := Int.eq_ofNat_of_zero_le whole
    rw [if_pos whole]
    exact exists_positional_of_whole negative positive exponent
  · obtain ⟨places, opposite⟩ := Int.eq_ofNat_of_zero_le (show 0 ≤ -decimal.exponent by omega)
    rw [if_neg whole, String.append_empty]
    exact exists_positional_of_places negative positive (show places ≠ 0 by omega) (by omega)

/-- The scientific form of a decimal. -/
theorem exists_scientific (positive : 0 < decimal.digits)
    (bounded : decimal.leadingPower.natAbs ≤ 0x7fffffff) :
    ∃ number : RawNumber, number.Writes negative decimal.value ∧
      number.chars = (if negative then ['-'] else []) ++ decimal.scientific.toList := by
  have digits : ∀ c ∈ Nat.toDigits 10 decimal.digits, Numeral.isDigit c = true :=
    fun c member => Numeral.isDigit_of_mem_toDigits member
  obtain ⟨first, more, run⟩ := List.exists_cons_of_ne_nil
    (Nat.toDigits_ne_nil (b := 10) (n := decimal.digits))
  rw [run] at digits
  have lead : [first].head? ≠ some '0' := by
    have head := Numeral.head_toDigits_ne positive
    rwa [run] at head
  have value := Numeral.digitsValue_toDigits decimal.digits
  rw [run] at value
  have list : decimal.digits.repr.toList = first :: more := by rw [Nat.toList_repr, run]
  have power : decimal.leadingPower - more.length = decimal.exponent := by
    rw [Decimal.leadingPower, ← String.length_toList, list, List.length_cons]
    omega
  have text : decimal.scientific.toList = [first] ++
      (fractionChars (if more = [] then none else some more) ++
        powerChars (some decimal.leadingPower)) := by
    have sign : (if decimal.leadingPower < 0 then "e-" else "e+").toList =
        ['e', if decimal.leadingPower < 0 then '-' else '+'] := by
      split <;> rfl
    rw [Decimal.scientific, ← Decimal.leadingPower, list]
    cases more with
    | nil => simp [fractionChars, powerChars, sign, Nat.toList_repr]
    | cons second more => simp [fractionChars, powerChars, sign, Nat.toList_repr]
  have behind : (if more = [] then none else some more).getD [] = more := by
    split
    · next none => exact none.symm
    · rfl
  refine ⟨⟨negative, [first], if more = [] then none else some more, some decimal.leadingPower⟩,
    ⟨⟨?_, ?_, ?_, ?_, ?_, ?_⟩, rfl, ?_,
    .inr (Option.some_ne_none _)⟩, ?_⟩
  · simp
  · intro c member
    exact digits c (List.mem_append_left more member)
  · exact fun zero => absurd zero lead
  · dsimp only
    split
    · exact (Option.some_ne_none []).symm
    · next nonempty => exact fun none => nonempty (Option.some.inj none)
  · dsimp only
    split
    · exact fun run member => absurd member (Option.not_mem_none run)
    · rintro rest ⟨⟩ c member
      exact digits c (List.mem_cons_of_mem first member)
  · rintro power ⟨⟩
    exact bounded
  · rw [RawNumber.magnitude]
    dsimp only
    rw [behind, Option.getD_some, power, List.singleton_append, value, Decimal.value]
  · rw [text]
    rfl

/-- The document form of a finite double stands for its sign and its shortest decimal. -/
theorem exists_documentText {x : Double} (finite : x.isFinite = true) :
    ∃ number : RawNumber, number.Writes x.isNegative (x.shortest .toEven).value ∧
      number.chars = x.documentText.toList := by
  have sign : x.signText.toList = if x.isNegative then ['-'] else [] := by
    unfold Double.signText
    split <;> rfl
  rw [Double.documentText]
  split
  · next zero =>
    refine ⟨_, .of_fraction x.isNegative ['0'] ['0'] (by simp) (by simp)
      (fun _ member => @digits_of_mem_zeros 2 _ member) (fun _ => rfl) ?_, ?_⟩
    · simp [Decimal.value, zero, Numeral.digitsValue]
    · simp [chars, fractionChars, powerChars, sign]
  · next nonzero =>
    have positive := Nat.pos_of_ne_zero nonzero
    split
    · obtain ⟨number, writes, text⟩ := exists_positional x.isNegative positive
      refine ⟨number, writes, ?_⟩
      simp only [text, String.toList_append, sign, List.append_assoc]
    · have significand : x.mantissa ≠ 0 := by
        intro none
        simp [Double.shortest, none] at nonzero
      have bounded := Double.leadingPower_shortest finite significand .toEven
      obtain ⟨number, writes, text⟩ := exists_scientific x.isNegative positive (by omega)
      refine ⟨number, writes, ?_⟩
      rw [text, String.toList_append, sign]

end Decimals

end RawNumber

end Medals
