import Medals.Proofs.Number.Whole

/-!
# Comparing integers as doubles

Rounded to doubles, integers keep their order (`Double.rank_ofInt_le`), though beyond `2 ^ 53`
neighbours can share a double. An integer of magnitude below `2 ^ 53` is numerically equal, as a
double, to no other integer, not even to one that is rounded: `Double.compare?_ofInt_eq_iff`.
-/

namespace Medals

namespace Double

/-- What is rounded has a pattern of its own, or is infinite; the sign plays no part in it. -/
theorem ofRatio_eq (numerator denominator : Nat) :
    ∃ packed, ∀ negative, ofRatio negative numerator denominator =
      if infinityMagnitude ≤ packed then infinity negative else ofMagnitude negative packed := by
  by_cases empty : numerator = 0
  · exact ⟨0, fun negative => by rw [ofRatio, if_pos empty]; rfl⟩
  · exact ⟨_, fun negative => by rw [ofRatio, if_neg empty]⟩

theorem infinityMagnitude_lt : infinityMagnitude < signBit := by decide

/-- What is rounded is no NaN. -/
theorem magnitude_ofRatio_le (negative : Bool) (numerator denominator : Nat) :
    (ofRatio negative numerator denominator).magnitude ≤ infinityMagnitude := by
  obtain ⟨packed, pattern⟩ := ofRatio_eq numerator denominator
  rw [pattern]
  split
  · rw [infinity, magnitude_ofMagnitude infinityMagnitude_lt]
  · next finite =>
    have below : packed < infinityMagnitude := Nat.lt_of_not_le finite
    rw [magnitude_ofMagnitude (Nat.lt_trans below infinityMagnitude_lt)]
    exact Nat.le_of_lt below

/-- Rounding keeps the sign. -/
theorem isNegative_ofRatio (negative : Bool) (numerator denominator : Nat) :
    (ofRatio negative numerator denominator).isNegative = negative := by
  obtain ⟨packed, pattern⟩ := ofRatio_eq numerator denominator
  rw [pattern]
  split
  · exact isNegative_ofMagnitude infinityMagnitude_lt
  · next finite =>
    exact isNegative_ofMagnitude (Nat.lt_trans (Nat.lt_of_not_le finite) infinityMagnitude_lt)

theorem le_roundQuotient (numerator denominator : Nat) :
    numerator / denominator ≤ roundQuotient numerator denominator := by
  simp only [roundQuotient]
  split
  · exact Nat.le_refl _
  · split
    · exact Nat.le_succ _
    · split
      · exact Nat.le_refl _
      · exact Nat.le_succ _

theorem roundQuotient_le_succ (numerator denominator : Nat) :
    roundQuotient numerator denominator ≤ numerator / denominator + 1 := by
  simp only [roundQuotient]
  split
  · exact Nat.le_succ _
  · split
    · exact Nat.le_refl _
    · split
      · exact Nat.le_succ _
      · exact Nat.le_refl _

theorem roundQuotient_mono {smaller greater : Nat} (atMost : smaller ≤ greater)
    (denominator : Nat) :
    roundQuotient smaller denominator ≤ roundQuotient greater denominator := by
  rcases Nat.lt_or_eq_of_le (Nat.div_le_div_right (c := denominator) atMost) with less | same
  · exact Nat.le_trans (roundQuotient_le_succ smaller denominator)
      (Nat.le_trans less (le_roundQuotient greater denominator))
  · -- Between numbers of one quotient the remainders decide.
    have remainders : smaller % denominator ≤ greater % denominator := by
      have first := Nat.div_add_mod smaller denominator
      have second := Nat.div_add_mod greater denominator
      rw [same] at first
      omega
    grind [roundQuotient]

section Large

/-- The bits below the sign of a whole number with at least 54 bits, unless it is too large for a
double: the rounded significand under the exponent of the leading bit. -/
def roundedMagnitude (whole : Nat) : Nat :=
  roundQuotient whole (2 ^ (whole.log2 - 52)) + (whole.log2 + 1022) * hiddenBit

variable {whole : Nat} (large : exactBound ≤ whole)

include large

theorem ne_zero_of_large : whole ≠ 0 := by
  rintro rfl
  exact absurd large (by decide)

theorem log2_of_large : 53 ≤ whole.log2 :=
  (Nat.le_log2 (ne_zero_of_large large)).mpr large

/-- Rounding a number to 53 bits leaves its leading bit or moves up to the next. -/
theorem roundedSignificand_bounds :
    hiddenBit ≤ roundQuotient whole (2 ^ (whole.log2 - 52)) ∧
      roundQuotient whole (2 ^ (whole.log2 - 52)) ≤ 2 * hiddenBit := by
  have long := log2_of_large large
  have floor : hiddenBit ≤ whole / 2 ^ (whole.log2 - 52) := by
    rw [Nat.le_div_iff_mul_le (Nat.two_pow_pos _)]
    calc hiddenBit * 2 ^ (whole.log2 - 52) = 2 ^ whole.log2 := by
          rw [show hiddenBit = 2 ^ 52 from rfl, ← Nat.pow_add,
            show 52 + (whole.log2 - 52) = whole.log2 by omega]
      _ ≤ whole := Nat.log2_self_le (ne_zero_of_large large)
  have ceiling : whole / 2 ^ (whole.log2 - 52) < 2 * hiddenBit := by
    rw [Nat.div_lt_iff_lt_mul (Nat.two_pow_pos _)]
    calc whole < 2 ^ (whole.log2 + 1) := Nat.lt_log2_self
      _ = 2 * hiddenBit * 2 ^ (whole.log2 - 52) := by
          rw [show 2 * hiddenBit = 2 ^ 53 from rfl, ← Nat.pow_add,
            show 53 + (whole.log2 - 52) = whole.log2 + 1 by omega]
  exact ⟨Nat.le_trans floor (le_roundQuotient _ _),
    Nat.le_trans (roundQuotient_le_succ _ _) ceiling⟩

theorem magnitude_ofRatio_large (negative : Bool) :
    (ofRatio negative whole 1).magnitude = min (roundedMagnitude whole) infinityMagnitude := by
  have positive := ne_zero_of_large large
  have long := log2_of_large large
  have grid := gridExponent_one positive
  have above : 0 ≤ gridExponent whole 1 := by omega
  have shift : (gridExponent whole 1).toNat = whole.log2 - 52 := by omega
  have biased : (gridExponent whole 1 + 1074).toNat = whole.log2 + 1022 := by omega
  have pattern : ofRatio negative whole 1 =
      if infinityMagnitude ≤ roundedMagnitude whole then infinity negative
      else ofMagnitude negative (roundedMagnitude whole) := by
    simp only [ofRatio, if_neg positive, if_pos above, shift, biased, Nat.one_shiftLeft]
    rfl
  rw [pattern]
  split
  · next infinite =>
    rw [infinity, magnitude_ofMagnitude infinityMagnitude_lt, Nat.min_eq_right infinite]
  · next finite =>
    have below : roundedMagnitude whole < infinityMagnitude := Nat.lt_of_not_le finite
    rw [magnitude_ofMagnitude (Nat.lt_trans below infinityMagnitude_lt),
      Nat.min_eq_left (Nat.le_of_lt below)]

/-- Rounding does not bring a whole number below the bound. -/
theorem le_magnitude_ofRatio_one (negative : Bool) :
    1076 * hiddenBit ≤ (ofRatio negative whole 1).magnitude := by
  have significand := (roundedSignificand_bounds large).1
  have field : 1075 * hiddenBit ≤ (whole.log2 + 1022) * hiddenBit :=
    Nat.mul_le_mul_right _ (by have := log2_of_large large; omega)
  rw [magnitude_ofRatio_large large, roundedMagnitude]
  refine Nat.le_min.mpr ⟨?_, by decide⟩
  calc 1076 * hiddenBit = hiddenBit + 1075 * hiddenBit := by decide
    _ ≤ _ := Nat.add_le_add significand field

end Large

/-- A longer number has a greater exponent field, and between numbers of one length the
significands decide. -/
theorem roundedMagnitude_mono {smaller greater : Nat} (atMost : smaller ≤ greater)
    (large : exactBound ≤ smaller) : roundedMagnitude smaller ≤ roundedMagnitude greater := by
  have upper := (roundedSignificand_bounds large).2
  have lower := (roundedSignificand_bounds (Nat.le_trans large atMost)).1
  unfold roundedMagnitude
  rcases Nat.lt_or_eq_of_le (log2_mono atMost) with shorter | sameLength
  · have fields : (smaller.log2 + 1023) * hiddenBit ≤ (greater.log2 + 1022) * hiddenBit :=
      Nat.mul_le_mul_right _ (by omega)
    calc roundQuotient smaller (2 ^ (smaller.log2 - 52)) + (smaller.log2 + 1022) * hiddenBit
        ≤ 2 * hiddenBit + (smaller.log2 + 1022) * hiddenBit := Nat.add_le_add_right upper _
      _ = hiddenBit + (smaller.log2 + 1023) * hiddenBit := by ring
      _ ≤ roundQuotient greater (2 ^ (greater.log2 - 52)) + (greater.log2 + 1022) * hiddenBit :=
          Nat.add_le_add lower fields
  · rw [sameLength]
    exact Nat.add_le_add_right (roundQuotient_mono atMost _) _

/-- The sign of what is rounded plays no part in its magnitude. -/
theorem magnitude_ofRatio_sign (one other : Bool) (numerator denominator : Nat) :
    (ofRatio one numerator denominator).magnitude =
      (ofRatio other numerator denominator).magnitude := by
  obtain ⟨packed, pattern⟩ := ofRatio_eq numerator denominator
  rw [pattern, pattern]
  split
  · rw [infinity, infinity, magnitude_ofMagnitude infinityMagnitude_lt,
      magnitude_ofMagnitude infinityMagnitude_lt]
  · next finite =>
    have below := Nat.lt_trans (Nat.lt_of_not_le finite) infinityMagnitude_lt
    rw [magnitude_ofMagnitude below, magnitude_ofMagnitude below]

/-- Whole numbers are rounded to patterns in their order. -/
theorem magnitude_ofRatio_one_le (one other : Bool) {smaller greater : Nat}
    (atMost : smaller ≤ greater) :
    (ofRatio one smaller 1).magnitude ≤ (ofRatio other greater 1).magnitude := by
  rcases Nat.lt_or_ge smaller exactBound with small | long
  · rcases Nat.lt_or_ge exactBound greater with beyond | within
    · have reached := magnitude_ofRatio_one_lt one false small (Nat.le_refl exactBound)
      rw [ofRatio_exactBound, magnitude_ofMagnitude (by decide)] at reached
      exact Nat.le_of_lt (Nat.lt_of_lt_of_le reached
        (le_magnitude_ofRatio_one (Nat.le_of_lt beyond) other))
    · rcases Nat.lt_or_eq_of_le atMost with less | rfl
      · exact Nat.le_of_lt (magnitude_ofRatio_one_lt one other less within)
      · exact Nat.le_of_eq (magnitude_ofRatio_sign one other smaller 1)
  · rw [magnitude_ofRatio_large long, magnitude_ofRatio_large (Nat.le_trans long atMost)]
    have grows := roundedMagnitude_mono atMost long
    omega

/-- The conversion of integers to doubles keeps the order, though neighbours can become equal. -/
theorem rank_ofInt_le {smaller greater : Int} (atMost : smaller ≤ greater) :
    (ofInt smaller).rank ≤ (ofInt greater).rank := by
  simp only [rank, ofInt, isNegative_ofRatio, decide_eq_true_eq]
  by_cases greaterNegative : greater < 0
  · have sizes := magnitude_ofRatio_one_le (decide (greater < 0)) (decide (smaller < 0))
      (show greater.natAbs ≤ smaller.natAbs by omega)
    rw [if_pos (by omega), if_pos greaterNegative]
    omega
  · rw [if_neg greaterNegative]
    by_cases smallerNegative : smaller < 0
    · rw [if_pos smallerNegative]
      omega
    · have sizes := magnitude_ofRatio_one_le (decide (smaller < 0)) (decide (greater < 0))
        (show smaller.natAbs ≤ greater.natAbs by omega)
      rw [if_neg smallerNegative]
      omega

/-- Below the bound a magnitude belongs to one whole number. -/
theorem magnitude_ofRatio_one_ne (one other : Bool) {whole bound : Nat} (small : bound < exactBound)
    (differ : whole ≠ bound) :
    (ofRatio one whole 1).magnitude ≠ (ofRatio other bound 1).magnitude := by
  rcases Nat.lt_or_gt_of_ne differ with less | greater
  · exact Nat.ne_of_lt (magnitude_ofRatio_one_lt one other less (Nat.le_of_lt small))
  · rcases Nat.lt_or_ge whole exactBound with representable | large
    · exact Nat.ne_of_gt (magnitude_ofRatio_one_lt other one greater (Nat.le_of_lt representable))
    · have floor := le_magnitude_ofRatio_one large one
      have reached := magnitude_ofRatio_one_lt other false small (Nat.le_refl exactBound)
      rw [ofRatio_exactBound, magnitude_ofMagnitude (by decide)] at reached
      omega

/-- As doubles an integer and one below the bound are numerically equal only if they are equal. -/
theorem compare?_ofInt_eq_iff {value bound : Int} (small : bound.natAbs < exactBound) :
    (ofInt value).compare? (ofInt bound) = some .eq ↔ value = bound := by
  have number : ∀ whole : Int, (ofInt whole).isNaN = false := fun whole => by
    have limit := magnitude_ofRatio_le (decide (whole < 0)) whole.natAbs 1
    exact decide_eq_false (Nat.not_lt.mpr limit)
  rw [compare?, number, number, Bool.or_self, if_neg Bool.false_ne_true, Option.some.injEq,
    Int.compare_eq_eq]
  refine ⟨fun same => ?_, fun equal => by rw [equal]⟩
  simp only [signedMagnitude, ofInt, isNegative_ofRatio, decide_eq_true_eq] at same
  by_contra differ
  by_cases sizes : value.natAbs = bound.natAbs
  · -- Opposite numbers have one magnitude, which is not zero.
    have positive := magnitude_ofRatio_one_lt false (decide (value < 0))
      (show 0 < value.natAbs by omega) (by omega)
    have same' := magnitude_ofRatio_one_lt false (decide (bound < 0))
      (show 0 < bound.natAbs by omega) (by omega)
    split at same <;> split at same <;> omega
  · have apart := magnitude_ofRatio_one_ne (decide (value < 0)) (decide (bound < 0)) small sizes
    split at same <;> split at same <;> omega

end Double

end Medals
