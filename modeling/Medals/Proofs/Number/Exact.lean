import Medals.Proofs.Number.Whole

/-!
# The exact value of a double

A finite double stands for a rational number. Patterns that differ stand for different numbers,
the two zeros apart (`Double.exactValue_eq_iff`), `Double.isPositive_iff` says which are above zero,
and `Double.toInt?_eq_some_iff` which stand for an integer. Infinities and NaNs have no value; what
is said holds of finite patterns.
-/

namespace Medals

namespace Double

/-- The number that a finite double stands for. -/
def exactValue (x : Double) : ℚ :=
  x.signedMantissa * 2 ^ x.exponent

/-- The size of the number in units of the smallest positive double, `2 ^ -1074`. -/
def units (x : Double) : Nat :=
  x.mantissa * 2 ^ (x.exponentField - 1)

theorem exponent_eq (x : Double) : x.exponent = ((x.exponentField - 1 : Nat) : Int) - 1074 := by
  unfold exponent
  split <;> omega

theorem mantissa_lt (x : Double) : x.mantissa < 2 * hiddenBit := by
  have fraction : x.fraction < hiddenBit := Nat.mod_lt _ (by decide)
  unfold mantissa
  split <;> omega

/-- A greater pattern below the sign is a greater number: under one exponent field the fractions
decide, and otherwise the greater field outweighs every fraction. -/
theorem units_lt_units {x y : Double} (less : x.magnitude < y.magnitude) : x.units < y.units := by
  have xParts : hiddenBit * x.exponentField + x.fraction = x.magnitude := Nat.div_add_mod _ _
  have yParts : hiddenBit * y.exponentField + y.fraction = y.magnitude := Nat.div_add_mod _ _
  rcases Nat.lt_or_eq_of_le (Nat.div_le_div_right (c := hiddenBit) (Nat.le_of_lt less)) with
    fields | fields
  · have greater : hiddenBit ≤ y.mantissa := by
      have normal : y.exponentField ≠ 0 := Nat.ne_of_gt (Nat.lt_of_le_of_lt (Nat.zero_le _) fields)
      rw [mantissa, if_neg normal]
      exact Nat.le_add_right _ _
    calc x.units < hiddenBit * 2 ^ x.exponentField := by
          unfold units
          by_cases subnormal : x.exponentField = 0
          · have fraction : x.fraction < hiddenBit := Nat.mod_lt _ (by decide)
            simpa [mantissa, subnormal] using fraction
          · calc x.mantissa * 2 ^ (x.exponentField - 1)
                < 2 * hiddenBit * 2 ^ (x.exponentField - 1) :=
                  Nat.mul_lt_mul_of_pos_right x.mantissa_lt (Nat.two_pow_pos _)
              _ = hiddenBit * 2 ^ x.exponentField := by
                  rw [Nat.mul_comm 2, Nat.mul_assoc, ← Nat.pow_succ', Nat.succ_eq_add_one,
                    Nat.sub_add_cancel (Nat.pos_of_ne_zero subnormal)]
      _ ≤ hiddenBit * 2 ^ (y.exponentField - 1) :=
          Nat.mul_le_mul_left _ (Nat.pow_le_pow_right (by decide) (Nat.le_sub_one_of_lt fields))
      _ ≤ y.units := Nat.mul_le_mul_right _ greater
  · change x.exponentField = y.exponentField at fields
    have fractions : x.fraction < y.fraction := by
      rw [← xParts, ← yParts, fields] at less
      omega
    have mantissas : x.mantissa < y.mantissa := by
      unfold mantissa
      rw [fields]
      split <;> omega
    rw [units, units, fields]
    exact Nat.mul_lt_mul_of_pos_right mantissas (Nat.two_pow_pos _)

theorem units_inj {x y : Double} : x.units = y.units ↔ x.magnitude = y.magnitude := by
  refine ⟨fun same => ?_, fun same => by simp [units, mantissa, exponentField, fraction, same]⟩
  rcases Nat.lt_trichotomy x.magnitude y.magnitude with less | equal | greater
  · exact absurd same (Nat.ne_of_lt (units_lt_units less))
  · exact equal
  · exact absurd same (Nat.ne_of_gt (units_lt_units greater))

theorem exactValue_eq_units (x : Double) :
    x.exactValue = ((if x.isNegative then -(x.units : Int) else x.units : Int) : ℚ) / 2 ^ 1074 := by
  have power : (2 : ℚ) ^ x.exponent = 2 ^ (x.exponentField - 1) / 2 ^ 1074 := by
    rw [exponent_eq, zpow_sub₀ (by norm_num), zpow_natCast, zpow_ofNat]
  rw [exactValue, power, signedMantissa, units]
  generalize (2 : ℚ) ^ 1074 = scale
  split <;> push_cast <;> ring

theorem units_eq_zero_iff {x : Double} : x.units = 0 ↔ x.isZero = true := by
  rw [isZero, decide_eq_true_eq]
  exact (@units_inj x (zero false)).trans (by rw [zero, magnitude_ofMagnitude (by decide)])

/-- The test for numbers above zero finds those of a positive value. -/
theorem isPositive_iff {x : Double} (finite : x.isFinite = true) :
    x.isPositive = true ↔ 0 < x.exactValue := by
  have number : x.isNaN = false := by
    simp only [isFinite, isNaN, decide_eq_true_eq, decide_eq_false_iff_not] at *
    omega
  rw [exactValue_eq_units, div_pos_iff_of_pos_right (by positivity), Int.cast_pos]
  simp only [isPositive, number, Bool.not_false, Bool.true_and, Bool.and_eq_true,
    Bool.not_eq_true', ← Bool.not_eq_true, ← units_eq_zero_iff]
  cases x.isNegative <;> simp

/-- Finite or not, patterns of one value differ at most in the sign of a zero. -/
theorem exactValue_eq_iff {x y : Double} :
    x.exactValue = y.exactValue ↔ x = y ∨ x.isZero = true ∧ y.isZero = true := by
  have pattern : x = y ↔ x.isNegative = y.isNegative ∧ x.magnitude = y.magnitude :=
    ⟨fun same => by simp [same], fun ⟨sign, size⟩ => rank_injective (by simp [rank, sign, size])⟩
  rw [exactValue_eq_units, exactValue_eq_units, div_left_inj' (by positivity), Int.cast_inj,
    pattern, ← units_inj, ← units_eq_zero_iff, ← units_eq_zero_iff]
  cases x.isNegative <;> cases y.isNegative <;> simp <;> omega

/-- With a negative exponent the value is a quotient. -/
theorem exactValue_eq_iff_mul {x : Double} {places : Nat} (negative : x.exponent = -(places : Int))
    {whole : Int} : x.exactValue = whole ↔ x.signedMantissa = whole * 2 ^ places := by
  rw [exactValue, negative, zpow_neg, zpow_natCast, ← div_eq_mul_inv,
    div_eq_iff (by positivity)]
  exact_mod_cast Iff.rfl

/-- A finite double is taken for the integer that it stands for, and for none otherwise. -/
theorem toInt?_eq_some_iff {x : Double} (finite : x.isFinite = true) {whole : Int} :
    x.toInt? = some whole ↔ x.exactValue = whole := by
  simp only [toInt?, finite, Bool.not_true, Bool.false_eq_true, if_false]
  split
  · next positive =>
    obtain ⟨places, exponent⟩ := Int.eq_ofNat_of_zero_le positive
    rw [exactValue, exponent, zpow_natCast, Option.some.injEq]
    exact_mod_cast Iff.rfl
  · next positive =>
    obtain ⟨places, exponent⟩ := Int.eq_ofNat_of_zero_le (show 0 ≤ -x.exponent by omega)
    have divides : x.mantissa % Nat.pow 2 places = 0 ↔
        ((2 ^ places : Nat) : Int) ∣ x.signedMantissa := by
      rw [← Nat.dvd_iff_mod_eq_zero, ← Int.natCast_dvd_natCast, signedMantissa]
      split
      · exact (Int.dvd_neg).symm
      · exact Iff.rfl
    rw [exactValue_eq_iff_mul (show x.exponent = -(places : Int) by omega), exponent,
      Int.toNat_natCast]
    have inside : x.signedMantissa = whole * 2 ^ places ↔
        ((2 ^ places : Nat) : Int) ∣ x.signedMantissa ∧
          x.signedMantissa / Nat.pow 2 places = whole := by
      have power : (2 : Int) ^ places = ((2 ^ places : Nat) : Int) := by norm_cast
      rw [power]
      constructor
      · intro same
        rw [same]
        exact ⟨Int.dvd_mul_left _ _, Int.mul_ediv_cancel _ (by positivity)⟩
      · rintro ⟨divisible, rfl⟩
        exact (Int.ediv_mul_cancel divisible).symm
    rw [inside, ← divides]
    split <;> simp_all

end Double

end Medals
