import Mathlib
import Medals.Number.Double

/-!
# Whole numbers as doubles

Up to `2 ^ 53` every integer is a double of its own. `Double.ofRatio_one` gives the
pattern, and `Double.rank_ofInt_lt` concludes that on these integers the conversion keeps the
strict order. Beyond that bound neighbours can share a double, so nothing is claimed there.
-/

namespace Medals

namespace Double

/-- The greatest magnitude up to which every integer is a double. -/
def exactBound : Nat := 0x20000000000000

/-- The place in the total order tells the pattern. -/
theorem rank_injective : Function.Injective rank := by
  intro x y same
  have pattern : ∀ z : Double, z.magnitude < signBit ∧
      z.bits.toNat = z.magnitude + if z.isNegative then signBit else 0 := by
    intro z
    have wide : z.bits.toNat < 2 * signBit := UInt64.toNat_lt z.bits
    refine ⟨Nat.mod_lt _ (by decide), ?_⟩
    by_cases negative : signBit ≤ z.bits.toNat
    · rw [if_pos (show z.isNegative = true from decide_eq_true negative), magnitude,
        Nat.mod_eq_sub_mod negative, Nat.mod_eq_of_lt (by omega)]
      omega
    · rw [if_neg (show ¬ z.isNegative = true by simpa [isNegative] using negative), magnitude,
        Nat.mod_eq_of_lt (Nat.lt_of_not_le negative), Nat.add_zero]
  obtain ⟨xSmall, xBits⟩ := pattern x
  obtain ⟨ySmall, yBits⟩ := pattern y
  have bits : x.bits.toNat = y.bits.toNat := by
    rw [xBits, yBits]
    unfold rank at same
    cases xSign : x.isNegative <;> cases ySign : y.isNegative <;> simp [xSign, ySign] at same ⊢ <;>
      omega
  cases x
  cases y
  exact congrArg Double.mk (UInt64.toNat_inj.mp bits)

theorem toNat_ofMagnitude {negative : Bool} {magnitude : Nat} (small : magnitude < signBit) :
    (ofMagnitude negative magnitude).bits.toNat =
      if negative then signBit + magnitude else magnitude := by
  rw [ofMagnitude, UInt64.toNat_ofNat']
  apply Nat.mod_eq_of_lt
  simp only [signBit] at small ⊢
  split <;> omega

theorem magnitude_ofMagnitude {negative : Bool} {magnitude : Nat} (small : magnitude < signBit) :
    (ofMagnitude negative magnitude).magnitude = magnitude := by
  rw [Double.magnitude, toNat_ofMagnitude small]
  cases negative
  · exact Nat.mod_eq_of_lt small
  · simpa using Nat.mod_eq_of_lt small

theorem isNegative_ofMagnitude {negative : Bool} {magnitude : Nat} (small : magnitude < signBit) :
    (ofMagnitude negative magnitude).isNegative = negative := by
  rw [isNegative, toNat_ofMagnitude small]
  cases negative <;> simp [small]

theorem roundQuotient_one (numerator : Nat) : roundQuotient numerator 1 = numerator := by
  simp [roundQuotient, Nat.mod_one]

theorem gridExponent_one {whole : Nat} (positive : whole ≠ 0) :
    gridExponent whole 1 = (whole.log2 : Int) - 52 := by
  have reached : 1 <<< whole.log2 ≤ whole := by
    rw [Nat.one_shiftLeft]
    exact Nat.log2_self_le positive
  have logOne : Nat.log2 1 = 0 := by decide
  have exponent : (whole.log2 : Int) - (0 : Nat) - 53 + 53 = whole.log2 := by omega
  simp only [gridExponent, logOne, exponent, Int.toNat_natCast, decide_eq_true reached,
    Int.natCast_nonneg, if_true]
  omega

/-- The bits below the sign of a whole number with fewer than 54 bits: its significand without
the hidden bit under the exponent of its leading bit. -/
def wholeMagnitude (whole : Nat) : Nat :=
  whole * 2 ^ (52 - whole.log2) + (whole.log2 + 1022) * hiddenBit

theorem log2_mono {smaller greater : Nat} (atMost : smaller ≤ greater) :
    smaller.log2 ≤ greater.log2 := by
  by_cases zero : smaller = 0
  · simp [zero]
  · rw [Nat.le_log2 (by omega)]
    exact Nat.le_trans (Nat.log2_self_le zero) atMost

theorem log2_le_of_lt {whole : Nat} (small : whole < exactBound) : whole.log2 ≤ 52 := by
  by_cases zero : whole = 0
  · simp [zero]
  · have := (Nat.log2_lt zero).mpr (show whole < 2 ^ 53 by simpa [exactBound] using small)
    omega

theorem significand_lt {whole : Nat} (small : whole < exactBound) :
    whole * 2 ^ (52 - whole.log2) < 2 * hiddenBit := by
  have shift := log2_le_of_lt small
  calc whole * 2 ^ (52 - whole.log2)
      < 2 ^ (whole.log2 + 1) * 2 ^ (52 - whole.log2) :=
        Nat.mul_lt_mul_of_pos_right Nat.lt_log2_self (Nat.two_pow_pos _)
    _ = 2 * hiddenBit := by
        rw [← Nat.pow_add, show whole.log2 + 1 + (52 - whole.log2) = 53 by omega]
        rfl

theorem hiddenBit_le_significand {whole : Nat} (positive : whole ≠ 0)
    (small : whole < exactBound) : hiddenBit ≤ whole * 2 ^ (52 - whole.log2) := by
  have shift := log2_le_of_lt small
  calc hiddenBit = 2 ^ whole.log2 * 2 ^ (52 - whole.log2) := by
        rw [← Nat.pow_add, show whole.log2 + (52 - whole.log2) = 52 by omega]
        rfl
    _ ≤ whole * 2 ^ (52 - whole.log2) :=
        Nat.mul_le_mul_right _ (Nat.log2_self_le positive)

theorem wholeMagnitude_lt {whole : Nat} (small : whole < exactBound) :
    wholeMagnitude whole < 1076 * hiddenBit := by
  have significand := significand_lt small
  have shift := log2_le_of_lt small
  simp only [wholeMagnitude, hiddenBit] at *
  omega

/-- A longer number has a greater exponent field, and between numbers of one length the
significands decide. -/
theorem wholeMagnitude_lt_wholeMagnitude {smaller greater : Nat} (less : smaller < greater)
    (small : greater < exactBound) : wholeMagnitude smaller < wholeMagnitude greater := by
  have smallerSmall : smaller < exactBound := Nat.lt_trans less small
  have upper := significand_lt smallerSmall
  have lower := hiddenBit_le_significand (by omega) small
  rcases Nat.lt_or_eq_of_le (log2_mono (Nat.le_of_lt less)) with shorter | sameLength
  · simp only [wholeMagnitude, hiddenBit] at *
    omega
  · rw [wholeMagnitude, wholeMagnitude, sameLength]
    exact Nat.add_lt_add_right (Nat.mul_lt_mul_of_pos_right less (Nat.two_pow_pos _)) _

/-- No rounding happens below the bound. -/
theorem ofRatio_one {negative : Bool} {whole : Nat} (positive : whole ≠ 0)
    (small : whole < exactBound) :
    ofRatio negative whole 1 = ofMagnitude negative (wholeMagnitude whole) := by
  have shift := log2_le_of_lt small
  have finite : ¬ infinityMagnitude ≤ wholeMagnitude whole := by
    have below := wholeMagnitude_lt small
    simp only [infinityMagnitude, hiddenBit] at *
    omega
  have biased : ((whole.log2 : Int) - 52 + 1074).toNat = whole.log2 + 1022 := by omega
  have significand : (if 0 ≤ (whole.log2 : Int) - 52
      then roundQuotient whole (1 <<< ((whole.log2 : Int) - 52).toNat)
      else roundQuotient (whole <<< (-((whole.log2 : Int) - 52)).toNat) 1) =
        whole * 2 ^ (52 - whole.log2) := by
    split
    · have top : whole.log2 = 52 := by omega
      simp [top, roundQuotient_one]
    · rw [roundQuotient_one, Nat.shiftLeft_eq]
      congr 2
      omega
  simp only [ofRatio, if_neg positive, gridExponent_one positive, significand, biased]
  rw [← wholeMagnitude, if_neg finite]

theorem ofRatio_exactBound (negative : Bool) :
    ofRatio negative exactBound 1 = ofMagnitude negative (1076 * hiddenBit) := by
  cases negative <;> decide +kernel

theorem ofRatio_zero (negative : Bool) (denominator : Nat) :
    ofRatio negative 0 denominator = ofMagnitude negative 0 := rfl

/-- Whole numbers up to the bound keep their sign. -/
theorem isNegative_ofRatio_one (negative : Bool) {whole : Nat} (bounded : whole ≤ exactBound) :
    (ofRatio negative whole 1).isNegative = negative := by
  by_cases zero : whole = 0
  · rw [zero, ofRatio_zero]
    exact isNegative_ofMagnitude (by decide)
  · rcases Nat.lt_or_eq_of_le bounded with small | rfl
    · rw [ofRatio_one zero small]
      refine isNegative_ofMagnitude (Nat.lt_trans (wholeMagnitude_lt small) (by decide))
    · rw [ofRatio_exactBound]
      exact isNegative_ofMagnitude (by decide)

/-- The patterns of whole numbers up to the bound come in the order of the numbers. -/
theorem magnitude_ofRatio_one_lt (one other : Bool) {smaller greater : Nat}
    (less : smaller < greater) (bounded : greater ≤ exactBound) :
    (ofRatio one smaller 1).magnitude < (ofRatio other greater 1).magnitude := by
  have small : smaller < exactBound := Nat.lt_of_lt_of_le less bounded
  have top : 1076 * hiddenBit < signBit := by decide
  have positive : greater ≠ 0 := by omega
  have magnitudeGreater : (ofRatio other greater 1).magnitude =
      if greater = exactBound then 1076 * hiddenBit else wholeMagnitude greater := by
    split
    · next reached => rw [reached, ofRatio_exactBound, magnitude_ofMagnitude top]
    · next below =>
      have small := Nat.lt_of_le_of_ne bounded below
      rw [ofRatio_one positive small,
        magnitude_ofMagnitude (Nat.lt_trans (wholeMagnitude_lt small) top)]
  have magnitudeSmaller : (ofRatio one smaller 1).magnitude =
      if smaller = 0 then 0 else wholeMagnitude smaller := by
    split
    · next zero => rw [zero, ofRatio_zero, magnitude_ofMagnitude (by decide)]
    · next nonzero =>
      rw [ofRatio_one nonzero small,
        magnitude_ofMagnitude (Nat.lt_trans (wholeMagnitude_lt small) top)]
  have increasing : greater < exactBound → wholeMagnitude smaller < wholeMagnitude greater := by
    intro below
    exact wholeMagnitude_lt_wholeMagnitude less below
  have limit := wholeMagnitude_lt small
  rw [magnitudeSmaller, magnitudeGreater]
  split <;> split
  · exact Nat.mul_pos (by decide) (by decide)
  · next below => exact Nat.lt_of_le_of_lt (Nat.zero_le _) (increasing (by omega))
  · exact limit
  · next below => exact increasing (by omega)

/-- On integers up to the bound the conversion to doubles keeps the strict order. -/
theorem rank_ofInt_lt {smaller greater : Int} (less : smaller < greater)
    (low : smaller.natAbs ≤ exactBound) (high : greater.natAbs ≤ exactBound) :
    (ofInt smaller).rank < (ofInt greater).rank := by
  simp only [rank, ofInt, isNegative_ofRatio_one _ low, isNegative_ofRatio_one _ high]
  by_cases smallerNegative : smaller < 0 <;> by_cases greaterNegative : greater < 0
  · have := magnitude_ofRatio_one_lt (decide (greater < 0)) (decide (smaller < 0))
      (show greater.natAbs < smaller.natAbs by omega) low
    simp only [smallerNegative, greaterNegative, decide_true, if_true] at this ⊢
    omega
  · simp only [smallerNegative, greaterNegative, decide_true, decide_false, if_true]
    rw [if_neg Bool.false_ne_true]
    omega
  · omega
  · have := magnitude_ofRatio_one_lt (decide (smaller < 0)) (decide (greater < 0))
      (show smaller.natAbs < greater.natAbs by omega) high
    simp only [smallerNegative, greaterNegative, decide_false] at this ⊢
    rw [if_neg Bool.false_ne_true, if_neg Bool.false_ne_true]
    omega

end Double

end Medals
