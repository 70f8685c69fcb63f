import Medals.Number.Reading
import Medals.Proofs.Number.Comparison
import Medals.Proofs.Number.Interval

/-!
# Rounding to the nearest double

A quotient is rounded to the double in whose interval it lies, and to infinity when it lies in the
interval of no finite double (`Double.contains_iff_magnitude_ofRatio`).
-/

namespace Medals

namespace Double

section Quotient

/-- Less than a half is dropped and more is rounded up; a half leaves an even number. -/
theorem roundQuotient_cases (numerator denominator : Nat) :
    2 * (numerator % denominator) < denominator ∧
        roundQuotient numerator denominator = numerator / denominator ∨
      denominator < 2 * (numerator % denominator) ∧
        roundQuotient numerator denominator = numerator / denominator + 1 ∨
      2 * (numerator % denominator) = denominator ∧
        roundQuotient numerator denominator % 2 = 0 ∧
        (roundQuotient numerator denominator = numerator / denominator ∨
          roundQuotient numerator denominator = numerator / denominator + 1) := by
  unfold roundQuotient
  dsimp only
  split
  · omega
  · split
    · omega
    · split <;> omega

/-- The whole number is at most a half away from a number, and nearer than that if it is odd. -/
def Nears (whole : Nat) (number : ℚ) : Prop :=
  if whole % 2 = 0 then
    (whole : ℚ) - 1 / 2 ≤ number ∧ number ≤ whole + 1 / 2
  else
    (whole : ℚ) - 1 / 2 < number ∧ number < whole + 1 / 2

theorem Nears.between {whole : Nat} {number : ℚ} (nears : Nears whole number) :
    (whole : ℚ) - 1 / 2 ≤ number ∧ number ≤ whole + 1 / 2 := by
  unfold Nears at nears
  split at nears
  · exact nears
  · exact ⟨nears.1.le, nears.2.le⟩

theorem pow_log2_between {number : Nat} (nonzero : number ≠ 0) :
    (2 : ℚ) ^ (number.log2 : Int) ≤ number ∧ (number : ℚ) < 2 ^ ((number.log2 : Int) + 1) := by
  have upper := Nat.lt_log2_self (n := number)
  refine ⟨?_, by exact_mod_cast upper⟩
  rw [zpow_natCast]
  exact_mod_cast Nat.log2_self_le nonzero

variable {numerator denominator : Nat} (positive : 0 < denominator)

include positive

/-- A quotient is rounded to a whole number that is near. -/
theorem nears_roundQuotient : Nears (roundQuotient numerator denominator)
    (numerator / denominator) := by
  unfold Nears
  have scaled : (0 : ℚ) < denominator := by exact_mod_cast positive
  have parts : (numerator : ℚ) / denominator =
      (numerator / denominator : Nat) + (numerator % denominator : Nat) / (denominator : ℚ) := by
    rw [div_eq_iff scaled.ne', add_mul, div_mul_cancel₀ _ scaled.ne', mul_comm]
    exact_mod_cast (Nat.div_add_mod numerator denominator).symm
  have proper : ((numerator % denominator : Nat) : ℚ) / denominator < 1 := by
    rw [div_lt_one scaled]
    exact_mod_cast Nat.mod_lt numerator positive
  have nonneg : (0 : ℚ) ≤ (numerator % denominator : Nat) / (denominator : ℚ) := by positivity
  have half : ∀ part : Nat, (part : ℚ) / denominator < 1 / 2 ↔ 2 * part < denominator := by
    intro part
    rw [div_lt_div_iff₀ scaled (by norm_num), one_mul, mul_comm]
    exact_mod_cast Iff.rfl
  have moreThanHalf : ∀ part : Nat,
      1 / 2 < (part : ℚ) / denominator ↔ denominator < 2 * part := by
    intro part
    rw [div_lt_div_iff₀ (by norm_num) scaled, one_mul, mul_comm]
    exact_mod_cast Iff.rfl
  rw [parts]
  rcases roundQuotient_cases numerator denominator with
    ⟨less, down⟩ | ⟨more, up⟩ | ⟨equal, even, near⟩
  · have part := (half _).mpr less
    rw [down]
    split <;> constructor <;> linarith
  · have part := (moreThanHalf _).mpr more
    rw [up, Nat.cast_add_one]
    split <;> constructor <;> linarith
  · have part : ((numerator % denominator : Nat) : ℚ) / denominator = 1 / 2 :=
      le_antisymm (not_lt.mp (mt (moreThanHalf _).mp (by omega)))
        (not_lt.mp (mt (half _).mp (by omega)))
    rw [if_pos even, part]
    rcases near with down | up
    · rw [down]
      constructor <;> linarith
    · rw [up, Nat.cast_add_one]
      constructor <;> linarith

/-- A quotient is compared with a power of two by a shift of one of its parts. -/
theorem pow_le_quotient_iff (exponent : Int) :
    (if 0 ≤ exponent then decide (denominator <<< exponent.toNat ≤ numerator)
      else decide (denominator ≤ numerator <<< (-exponent).toNat)) = true ↔
      (2 : ℚ) ^ exponent ≤ numerator / denominator := by
  have scaled : (0 : ℚ) < denominator := by exact_mod_cast positive
  rw [le_div_iff₀ scaled]
  split
  · next whole =>
    obtain ⟨places, rfl⟩ := Int.eq_ofNat_of_zero_le whole
    rw [Int.toNat_natCast, decide_eq_true_eq, Nat.shiftLeft_eq, zpow_natCast, mul_comm]
    exact_mod_cast Iff.rfl
  · next broken =>
    obtain ⟨places, opposite⟩ := Int.eq_ofNat_of_zero_le (show 0 ≤ -exponent by omega)
    rw [opposite, Int.toNat_natCast, decide_eq_true_eq, Nat.shiftLeft_eq,
      show exponent = -(places : Int) by omega, zpow_neg, zpow_natCast,
      inv_mul_le_iff₀ (by positivity), mul_comm (2 ^ places : ℚ)]
    exact_mod_cast Iff.rfl

variable (nonzero : numerator ≠ 0)

include nonzero

/-- The bits of a quotient are those of its parts, up to one. -/
theorem quotient_between_pow :
    (2 : ℚ) ^ ((numerator.log2 : Int) - denominator.log2 - 1) < numerator / denominator ∧
      (numerator / denominator : ℚ) < 2 ^ ((numerator.log2 : Int) - denominator.log2 + 1) := by
  have scaled : (0 : ℚ) < denominator := by exact_mod_cast positive
  obtain ⟨topLow, topHigh⟩ := pow_log2_between nonzero
  obtain ⟨bottomLow, bottomHigh⟩ := pow_log2_between (Nat.ne_of_gt positive)
  constructor
  · rw [lt_div_iff₀ scaled]
    calc (2 : ℚ) ^ ((numerator.log2 : Int) - denominator.log2 - 1) * denominator
        < 2 ^ ((numerator.log2 : Int) - denominator.log2 - 1) *
            2 ^ ((denominator.log2 : Int) + 1) :=
          mul_lt_mul_of_pos_left bottomHigh (by positivity)
      _ = 2 ^ (numerator.log2 : Int) := by
          rw [← zpow_add₀ (by norm_num)]
          congr 1
          omega
      _ ≤ numerator := topLow
  · rw [div_lt_iff₀ scaled]
    calc (numerator : ℚ) < 2 ^ ((numerator.log2 : Int) + 1) := topHigh
      _ = 2 ^ ((numerator.log2 : Int) - denominator.log2 + 1) * 2 ^ (denominator.log2 : Int) := by
          rw [← zpow_add₀ (by norm_num)]
          congr 1
          omega
      _ ≤ 2 ^ ((numerator.log2 : Int) - denominator.log2 + 1) * denominator :=
          mul_le_mul_of_nonneg_left bottomLow (by positivity)

/-- On its grid a quotient has 53 bits, or fewer on the finest grid. -/
theorem gridExponent_between :
    -1074 ≤ gridExponent numerator denominator ∧
      (numerator / denominator : ℚ) < 2 * hiddenBit * 2 ^ gridExponent numerator denominator ∧
      (-1074 < gridExponent numerator denominator →
        (hiddenBit : ℚ) * 2 ^ gridExponent numerator denominator ≤ numerator / denominator) := by
  obtain ⟨above, below⟩ := quotient_between_pow positive nonzero
  have scale : ∀ places : Int, (hiddenBit : ℚ) * 2 ^ places = 2 ^ (places + 52) := by
    intro places
    rw [zpow_add₀ (by norm_num), mul_comm]
    norm_num [hiddenBit]
  unfold gridExponent
  extract_lets estimate reaches
  have reached : reaches = true ↔ (2 : ℚ) ^ (estimate + 53) ≤ numerator / denominator :=
    pow_le_quotient_iff positive _
  have less : (numerator / denominator : ℚ) <
      2 ^ ((if reaches then estimate + 1 else estimate) + 53) := by
    split
    · rwa [show estimate + 1 + 53 = (numerator.log2 : Int) - denominator.log2 + 1 by omega]
    · next short => exact not_le.mp (mt reached.mpr short)
  have reach : (2 : ℚ) ^ ((if reaches then estimate + 1 else estimate) + 52) ≤
      numerator / denominator := by
    split
    · next long =>
      rw [show estimate + 1 + 52 = estimate + 53 by omega]
      exact reached.mp long
    · rw [show estimate + 52 = (numerator.log2 : Int) - denominator.log2 - 1 by omega]
      exact above.le
  generalize (if reaches then estimate + 1 else estimate) = places at *
  refine ⟨Int.le_max_left _ _, ?_, fun coarse => ?_⟩
  · rw [mul_assoc, scale, ← zpow_one_add₀ (by norm_num)]
    exact less.trans_le (zpow_le_zpow_right₀ (by norm_num) (by omega))
  · rw [scale, show max (-1074) places = places by omega]
    exact reach

end Quotient

section Packing

variable {significand places : Nat}

/-- The number that a significand stands for on the grid of its magnitude. -/
theorem unitsOf_packed (short : significand ≤ 2 * hiddenBit)
    (normal : places ≠ 0 → hiddenBit ≤ significand) :
    unitsOf (significand + places * hiddenBit) = significand * 2 ^ places := by
  unfold unitsOf
  rw [Nat.add_mul_div_right _ _ (by decide), Nat.add_mul_mod_self_right]
  rcases Nat.lt_or_ge significand hiddenBit with subnormal | above
  · have finest : places = 0 := by
      by_contra coarse
      exact absurd (normal coarse) (Nat.not_le.mpr subnormal)
    rw [Nat.div_eq_of_lt subnormal, Nat.mod_eq_of_lt subnormal, finest]
    simp
  · rcases Nat.lt_or_eq_of_le short with less | carried
    · have one : significand / hiddenBit = 1 := by
        simp only [hiddenBit] at *
        omega
      have rest : hiddenBit + significand % hiddenBit = significand := by
        simp only [hiddenBit] at *
        omega
      rw [one, if_neg (by omega), rest, Nat.add_sub_cancel_left]
    · rw [carried, Nat.mul_div_cancel _ (by decide), Nat.mul_mod_left, if_neg (by omega),
        Nat.add_zero, show 2 + places - 1 = 1 + places by omega, Nat.pow_add]
      ring

/-- The next magnitude is at least a step of the grid away. -/
theorem le_halfway_packed (short : significand ≤ 2 * hiddenBit)
    (normal : places ≠ 0 → hiddenBit ≤ significand) :
    (2 * significand + 1 : ℚ) * 2 ^ places / 2 ^ 1075 ≤
      halfway (significand + places * hiddenBit) := by
  have step : 2 ^ places ≤ 2 ^ ((significand + places * hiddenBit) / hiddenBit - 1) := by
    refine Nat.pow_le_pow_right (by decide) ?_
    by_cases finest : places = 0
    · omega
    · have some := (Nat.one_le_div_iff (show 0 < hiddenBit by decide)).mpr (normal finest)
      rw [Nat.add_mul_div_right _ _ (by decide)]
      omega
  have cast : (2 : ℚ) ^ places ≤
      (2 ^ ((significand + places * hiddenBit) / hiddenBit - 1) : Nat) := by exact_mod_cast step
  rw [halfway, unitsOf_succ, unitsOf_packed short normal]
  refine div_le_div_of_nonneg_right ?_ (by positivity)
  rw [Nat.cast_add, Nat.cast_add, Nat.cast_mul, Nat.cast_pow, Nat.cast_ofNat]
  linarith

/-- The magnitude before is a step of the grid away, unless the significand is the least that is not
on a finer grid. -/
theorem lowerEnd_packed (short : significand ≤ 2 * hiddenBit)
    (normal : places ≠ 0 → hiddenBit ≤ significand) (positive : 0 < significand) :
    lowerEnd (significand + places * hiddenBit) =
        (2 * significand - 1) * 2 ^ places / 2 ^ 1075 ∨
      significand = hiddenBit ∧ places ≠ 0 ∧
        lowerEnd (significand + places * hiddenBit) < 2 * significand * 2 ^ places / 2 ^ 1075 := by
  have step := unitsOf_succ (significand + places * hiddenBit - 1)
  rw [Nat.sub_add_cancel (by omega), unitsOf_packed short normal] at step
  have ends : lowerEnd (significand + places * hiddenBit) =
      (2 * significand * 2 ^ places -
        (2 ^ ((significand + places * hiddenBit - 1) / hiddenBit - 1) : Nat)) / 2 ^ 1075 := by
    rw [lowerEnd, if_neg (by omega), halfway, Nat.sub_add_cancel (by omega),
      unitsOf_packed short normal]
    congr 1
    have cast : (significand * 2 ^ places : ℚ) =
        (unitsOf (significand + places * hiddenBit - 1) : Nat) +
          (2 ^ ((significand + places * hiddenBit - 1) / hiddenBit - 1) : Nat) := by
      exact_mod_cast step
    rw [Nat.cast_add, Nat.cast_mul, Nat.cast_pow, Nat.cast_ofNat]
    linarith
  rw [ends]
  by_cases least : significand = hiddenBit ∧ places ≠ 0
  · refine .inr ⟨least.1, least.2, div_lt_div_of_pos_right ?_ (by positivity)⟩
    have some : (0 : ℚ) < (2 ^ ((significand + places * hiddenBit - 1) / hiddenBit - 1) : Nat) := by
      exact_mod_cast Nat.two_pow_pos _
    linarith
  · left
    have same : (significand + places * hiddenBit - 1) / hiddenBit - 1 = places := by
      rw [show significand + places * hiddenBit - 1 = significand - 1 + places * hiddenBit by omega,
        Nat.add_mul_div_right _ _ (by decide)]
      simp only [hiddenBit] at *
      omega
    rw [same]
    congr 1
    push_cast
    ring

/-- A significand that is near a number of the grid has no more bits than the grid. -/
theorem Nears.significand_between {ratio : ℚ} (nears : Nears significand ratio)
    (upper : ratio < 2 * hiddenBit) (lower : places ≠ 0 → (hiddenBit : ℚ) ≤ ratio) :
    significand ≤ 2 * hiddenBit ∧ (places ≠ 0 → hiddenBit ≤ significand) := by
  obtain ⟨low, high⟩ := nears.between
  constructor
  · have cast : (significand : ℚ) < (2 * hiddenBit + 1 : Nat) := by
      push_cast
      linarith
    exact Nat.lt_succ_iff.mp (by exact_mod_cast cast)
  · intro coarse
    have cast : (hiddenBit : ℚ) < (significand + 1 : Nat) := by
      have := lower coarse
      push_cast
      linarith
    exact Nat.lt_succ_iff.mp (by exact_mod_cast cast)

/-- A number near a significand on a grid rounds to the magnitude of the two. -/
theorem Nears.attracts {ratio : ℚ} (nears : Nears significand ratio) (nonneg : 0 ≤ ratio)
    (upper : ratio < 2 * hiddenBit) (lower : places ≠ 0 → (hiddenBit : ℚ) ≤ ratio) :
    Attracts (significand + places * hiddenBit) (2 * ratio * 2 ^ places / 2 ^ 1075) := by
  obtain ⟨short, normal⟩ := nears.significand_between upper lower
  obtain ⟨low, high⟩ := nears.between
  have le : ∀ {bound other : ℚ}, bound ≤ other →
      bound * 2 ^ places / 2 ^ 1075 ≤ other * 2 ^ places / 2 ^ 1075 := by
    intro bound other atMost
    gcongr
  have lt : ∀ {bound other : ℚ}, bound < other →
      bound * 2 ^ places / 2 ^ 1075 < other * 2 ^ places / 2 ^ 1075 := by
    intro bound other less
    gcongr
  have parity : (significand + places * hiddenBit) % 2 = significand % 2 := by
    simp only [hiddenBit]
    omega
  have above := le_halfway_packed short normal
  unfold Attracts
  rw [parity]
  rcases Nat.eq_zero_or_pos significand with zero | positive
  · have finest : places = 0 := by
      by_contra coarse
      exact absurd (normal coarse) (by rw [zero]; decide)
    have lowest : lowerEnd (significand + places * hiddenBit) = 0 := by
      rw [lowerEnd, if_pos (by rw [zero, finest]; rfl)]
    rw [if_pos (by rw [zero]), lowest]
    exact ⟨by positivity, (le (by linarith)).trans above⟩
  · rcases lowerEnd_packed short normal positive with below | ⟨least, coarse, below⟩
    · rw [below]
      unfold Nears at nears
      split at nears
      · next even =>
        rw [if_pos even]
        exact ⟨le (by linarith), (le (by linarith)).trans above⟩
      · next odd =>
        rw [if_neg odd]
        exact ⟨lt (by linarith), (lt (by linarith)).trans_le above⟩
    · have reach := lower coarse
      have start : lowerEnd (significand + places * hiddenBit) <
          2 * ratio * 2 ^ places / 2 ^ 1075 := by
        refine below.trans_le (le ?_)
        rw [least]
        linarith
      rw [if_pos (by rw [least]; decide)]
      exact ⟨start.le, (le (by linarith)).trans above⟩

/-- A number that is rounded on its grid to a significand rounds to the magnitude of the two. -/
theorem attracts_packed {grid : Int} {number : ℚ} (fine : -1074 ≤ grid)
    (upper : number / 2 ^ grid < 2 * hiddenBit)
    (lower : -1074 < grid → (hiddenBit : ℚ) ≤ number / 2 ^ grid)
    (nonneg : 0 ≤ number) (nears : Nears significand (number / 2 ^ grid)) :
    Attracts (significand + (grid + 1074).toNat * hiddenBit) number := by
  obtain ⟨places, exponent⟩ := Int.eq_ofNat_of_zero_le (show 0 ≤ grid + 1074 by omega)
  have unit : (2 : ℚ) ^ grid = 2 * 2 ^ places / 2 ^ 1075 := by
    rw [show grid = (places : Int) - 1074 by omega, zpow_sub₀ (by norm_num), zpow_natCast,
      zpow_ofNat, pow_succ' (2 : ℚ) 1074, mul_div_mul_left _ _ (by norm_num)]
  have scaled : number = 2 * (number / 2 ^ grid) * 2 ^ places / 2 ^ 1075 := by
    rw [mul_comm 2, mul_assoc, mul_div_assoc, ← unit, div_mul_cancel₀ _ (by positivity)]
  rw [exponent, Int.toNat_natCast, scaled]
  exact nears.attracts (by positivity) upper fun coarse => lower (by omega)

end Packing

/-- Small numbers round to zero. -/
theorem attracts_zero {number : ℚ} (nonneg : 0 ≤ number) (tiny : number ≤ 1 / 2 ^ 1075) :
    Attracts 0 number := by
  have first : unitsOf 0 + unitsOf (0 + 1) = 1 := by decide
  rw [Attracts, if_pos rfl, lowerEnd, if_pos rfl, halfway, first, Nat.cast_one]
  exact ⟨nonneg, tiny⟩

/-- On a grid a quotient is rounded as the quotient of two whole numbers. -/
theorem exists_scaled (numerator : Nat) {denominator : Nat} (positive : 0 < denominator)
    (grid : Int) :
    ∃ top bottom : Nat, 0 < bottom ∧ (top / bottom : ℚ) = numerator / denominator / 2 ^ grid ∧
      (if 0 ≤ grid then roundQuotient numerator (denominator <<< grid.toNat)
        else roundQuotient (numerator <<< (-grid).toNat) denominator) =
        roundQuotient top bottom := by
  by_cases whole : 0 ≤ grid
  · obtain ⟨places, rfl⟩ := Int.eq_ofNat_of_zero_le whole
    refine ⟨numerator, denominator <<< places, ?_, ?_, if_pos whole⟩
    · rw [Nat.shiftLeft_eq]
      exact Nat.mul_pos positive (Nat.two_pow_pos _)
    · rw [Nat.shiftLeft_eq, zpow_natCast, div_div]
      push_cast
      rfl
  · obtain ⟨places, opposite⟩ := Int.eq_ofNat_of_zero_le (show 0 ≤ -grid by omega)
    refine ⟨numerator <<< (-grid).toNat, denominator, positive, ?_, if_neg whole⟩
    rw [opposite, show grid = -(places : Int) by omega, Int.toNat_natCast, Nat.shiftLeft_eq,
      zpow_neg, zpow_natCast, div_inv_eq_mul]
    push_cast
    ring

/-- What is rounded takes the magnitude to which it rounds, or is infinite beyond all of them. -/
theorem exists_attracts_ofRatio (numerator : Nat) {denominator : Nat} (positive : 0 < denominator) :
    ∃ packed, Attracts packed (numerator / denominator) ∧
      ∀ negative, (ofRatio negative numerator denominator).magnitude =
        min packed infinityMagnitude := by
  by_cases empty : numerator = 0
  · refine ⟨0, ?_, fun negative => ?_⟩
    · rw [empty, Nat.cast_zero, zero_div]
      exact attracts_zero le_rfl (by positivity)
    · rw [empty, ofRatio_zero, magnitude_ofMagnitude (by decide)]
      rfl
  · obtain ⟨fine, small, large⟩ := gridExponent_between positive empty
    obtain ⟨top, bottom, bottomPositive, ratio, significand⟩ :=
      exists_scaled numerator positive (gridExponent numerator denominator)
    have grids : (0 : ℚ) < 2 ^ gridExponent numerator denominator := by positivity
    refine ⟨roundQuotient top bottom +
      (gridExponent numerator denominator + 1074).toNat * hiddenBit, ?_, fun negative => ?_⟩
    · refine attracts_packed fine ?_ ?_ (by positivity) ?_
      · rwa [div_lt_iff₀ grids]
      · intro coarse
        rw [le_div_iff₀ grids]
        exact large coarse
      · rw [← ratio]
        exact nears_roundQuotient bottomPositive
    · unfold ofRatio
      rw [if_neg empty]
      dsimp only
      rw [significand]
      split
      · next infinite =>
        rw [infinity, magnitude_ofMagnitude infinityMagnitude_lt, Nat.min_eq_right infinite]
      · next finite =>
        have below := Nat.lt_of_not_le finite
        rw [magnitude_ofMagnitude (Nat.lt_trans below infinityMagnitude_lt),
          Nat.min_eq_left (Nat.le_of_lt below)]

/-- A finite double is what a quotient is rounded to when the quotient lies in its interval. -/
theorem contains_iff_magnitude_ofRatio {x : Double} (finite : x.isFinite = true) (negative : Bool)
    (numerator : Nat) {denominator : Nat} (positive : 0 < denominator) :
    (RoundingInterval.ofDouble x).Contains (numerator / denominator) ↔
      x.magnitude = (ofRatio negative numerator denominator).magnitude := by
  obtain ⟨packed, attracts, rounded⟩ := exists_attracts_ofRatio numerator positive
  have below : x.magnitude < infinityMagnitude := of_decide_eq_true finite
  have same : x.magnitude = min packed infinityMagnitude ↔ x.magnitude = packed := by omega
  rw [contains_iff_attracts, rounded, same]
  refine ⟨fun inside => eq_of_attracts inside attracts, fun equal => ?_⟩
  rw [equal]
  exact attracts

/-- Every number rounds to a magnitude. -/
theorem exists_attracts {number : ℚ} (nonneg : 0 ≤ number) :
    ∃ magnitude, Attracts magnitude number := by
  obtain ⟨magnitude, attracts, -⟩ := exists_attracts_ofRatio number.num.natAbs number.den_pos
  have whole : ((number.num.natAbs : Int) : ℚ) = number.num := by
    rw [Int.natAbs_of_nonneg (Rat.num_nonneg.mpr nonneg)]
  rw [← Int.cast_natCast number.num.natAbs, whole, Rat.num_div_den] at attracts
  exact ⟨magnitude, attracts⟩

section Nearest

/-- The number that a magnitude stands for. -/
def numberOf (magnitude : Nat) : ℚ :=
  unitsOf magnitude / 2 ^ 1074

theorem numberOf_zero : numberOf 0 = 0 := by
  rw [numberOf, show unitsOf 0 = 0 by decide, Nat.cast_zero, zero_div]

theorem numberOf_strictMono : StrictMono numberOf := by
  intro smaller greater less
  exact div_lt_div_of_pos_right (Nat.cast_lt.mpr (unitsOf_strictMono less)) (by positivity)

theorem halfway_eq (magnitude : Nat) :
    halfway magnitude = (numberOf magnitude + numberOf (magnitude + 1)) / 2 := by
  rw [halfway, numberOf, numberOf, Nat.cast_add, pow_succ (2 : ℚ) 1074, ← add_div, div_div]

theorem abs_exactValue (x : Double) : |x.exactValue| = numberOf x.magnitude := by
  have units : |((if x.isNegative then -(x.units : Int) else x.units : Int) : ℚ)| = x.units := by
    split <;> simp
  rw [exactValue_eq_units, abs_div, units, abs_of_pos (show (0 : ℚ) < 2 ^ 1074 by positivity)]
  rfl

/-- No magnitude is nearer to a number than the one to which it rounds. -/
theorem Attracts.nearest {magnitude : Nat} {number : ℚ} (attracts : Attracts magnitude number)
    (other : Nat) : |numberOf magnitude - number| ≤ |numberOf other - number| := by
  obtain ⟨lower, upper⟩ := attracts.between
  rcases Nat.lt_trichotomy other magnitude with less | rfl | greater
  · have start : lowerEnd magnitude = halfway (magnitude - 1) := if_neg (by omega)
    have before := numberOf_strictMono.monotone (show other ≤ magnitude - 1 by omega)
    have apart := numberOf_strictMono less
    rw [start, halfway_eq, Nat.sub_add_cancel (by omega)] at lower
    rw [abs_sub_comm (numberOf other)]
    refine le_trans (abs_le.mpr ⟨?_, ?_⟩) (le_abs_self (number - numberOf other)) <;> linarith
  · exact le_rfl
  · have behind := numberOf_strictMono.monotone (show magnitude + 1 ≤ other from greater)
    have apart := numberOf_strictMono greater
    rw [halfway_eq] at upper
    refine le_trans (abs_le.mpr ⟨?_, ?_⟩) (le_abs_self (numberOf other - number)) <;> linarith

/-- The numbers that round to finite doubles are below `2 ^ 1024`. -/
theorem halfway_lt_of_finite {x : Double} (finite : x.isFinite = true) :
    halfway x.magnitude < 2 ^ 1024 := by
  have below : x.magnitude < infinityMagnitude := of_decide_eq_true finite
  have greatest : unitsOf (infinityMagnitude - 1) + unitsOf (infinityMagnitude - 1 + 1) <
      2 ^ (1024 + 1075) := by decide +kernel
  refine (halfway_strictMono.monotone (Nat.le_sub_one_of_lt below)).trans_lt ?_
  rw [halfway, div_lt_iff₀ (by positivity), ← pow_add]
  have cast := Nat.cast_lt (α := ℚ) |>.mpr greatest
  rwa [Nat.cast_pow, Nat.cast_ofNat] at cast

/-- The double to which a number rounds: it has the sign of the number and the number lies in its
interval. -/
structure RoundsTo (x : Double) (number : ℚ) : Prop where
  finite : x.isFinite = true
  sign : if x.isNegative then number ≤ 0 else 0 ≤ number
  inside : (RoundingInterval.ofDouble x).Contains |number|

theorem exactValue_eq_abs (x : Double) :
    x.exactValue = if x.isNegative then -|x.exactValue| else |x.exactValue| := by
  rw [exactValue_eq_units, abs_div, abs_of_pos (show (0 : ℚ) < 2 ^ 1074 by positivity)]
  split
  · rw [Int.cast_neg, Int.cast_natCast, abs_neg, Nat.abs_cast, neg_div]
  · rw [Int.cast_natCast, Nat.abs_cast]

/-- No double is nearer to a number than the one to which it rounds. -/
theorem RoundsTo.nearest {x : Double} {number : ℚ} (rounds : RoundsTo x number) (y : Double) :
    |x.exactValue - number| ≤ |y.exactValue - number| := by
  have attracts := (contains_iff_attracts x |number|).mp rounds.inside
  have own : |x.exactValue - number| = |numberOf x.magnitude - (|number|)| := by
    have sign := rounds.sign
    rw [exactValue_eq_abs, abs_exactValue]
    split
    · next negative =>
      rw [if_pos negative] at sign
      rw [abs_of_nonpos sign, ← abs_neg]
      congr 1
      ring
    · next positive =>
      rw [if_neg positive] at sign
      rw [abs_of_nonneg sign]
  rw [own]
  refine (attracts.nearest y.magnitude).trans ?_
  rw [← abs_exactValue]
  exact abs_abs_sub_abs_le _ _

/-- What is a double rounds to itself. -/
theorem RoundsTo.of_exact {x y : Double} {number : ℚ} (rounds : RoundsTo x number)
    (exact : y.exactValue = number) : x.exactValue = number := by
  have near := rounds.nearest y
  rw [exact, sub_self, abs_zero] at near
  exact sub_eq_zero.mp (abs_nonpos_iff.mp near)

/-- A number rounds to a single number. -/
theorem RoundsTo.exactValue_eq {x y : Double} {number : ℚ} (one : RoundsTo x number)
    (other : RoundsTo y number) : x.exactValue = y.exactValue := by
  have magnitudes := magnitude_eq_of_contains one.inside other.inside
  have both : 0 ≤ number → number ≤ 0 → numberOf x.magnitude = 0 := by
    intro nonneg nonpos
    have zero : number = 0 := le_antisymm nonpos nonneg
    have inside := one.inside
    rw [contains_iff_attracts, zero, abs_zero] at inside
    rw [eq_of_attracts inside (attracts_zero le_rfl (by positivity)), numberOf_zero]
  have oneSign := one.sign
  have otherSign := other.sign
  rw [exactValue_eq_abs x, exactValue_eq_abs y, abs_exactValue, abs_exactValue, ← magnitudes]
  cases xSign : x.isNegative <;> cases ySign : y.isNegative <;>
    simp only [xSign, ySign, if_true, Bool.false_eq_true, if_false] at oneSign otherSign ⊢
  · rw [both oneSign otherSign, neg_zero]
  · rw [both otherSign oneSign, neg_zero]

theorem numberOf_lt_halfway (magnitude : Nat) : numberOf magnitude < halfway magnitude := by
  have next := numberOf_strictMono (Nat.lt_succ_self magnitude)
  rw [halfway_eq]
  linarith

/-- Up to the bound a whole number is a finite double. -/
theorem magnitude_ofRatio_one (negative : Bool) {whole : Nat} (bounded : whole ≤ exactBound) :
    numberOf (ofRatio negative whole 1).magnitude = whole ∧
      (ofRatio negative whole 1).magnitude < infinityMagnitude := by
  have units : ∀ {significand places : Nat}, significand ≤ 2 * hiddenBit →
      hiddenBit ≤ significand → significand * 2 ^ places = whole * 2 ^ 1074 →
      numberOf (significand + places * hiddenBit) = whole := by
    intro significand places short normal same
    rw [numberOf, unitsOf_packed short fun _ => normal, same, Nat.cast_mul, Nat.cast_pow,
      Nat.cast_ofNat, mul_div_cancel_right₀ _ (by positivity)]
  have top : 1076 * hiddenBit < infinityMagnitude := by decide
  by_cases zero : whole = 0
  · rw [zero, ofRatio_zero, magnitude_ofMagnitude (by decide)]
    exact ⟨by rw [numberOf_zero, Nat.cast_zero], by decide⟩
  · rcases Nat.lt_or_eq_of_le bounded with small | rfl
    · have below := Nat.lt_trans (wholeMagnitude_lt small) top
      have shift := log2_le_of_lt small
      rw [ofRatio_one zero small, magnitude_ofMagnitude (Nat.lt_trans below infinityMagnitude_lt)]
      refine ⟨units (significand_lt small).le (hiddenBit_le_significand zero small) ?_, below⟩
      have powers : 2 ^ (52 - whole.log2) * 2 ^ (whole.log2 + 1022) = 2 ^ 1074 := by
        rw [← Nat.pow_add]
        exact congrArg (2 ^ ·) (by omega)
      exact (Nat.mul_assoc _ _ _).trans (congrArg (whole * ·) powers)
    · rw [ofRatio_exactBound, magnitude_ofMagnitude (by decide)]
      refine ⟨?_, top⟩
      rw [show 1076 * hiddenBit = hiddenBit + 1075 * hiddenBit by decide]
      refine units (by decide) (Nat.le_refl _) ?_
      rw [show exactBound = hiddenBit * 2 from rfl, Nat.mul_assoc, ← Nat.pow_succ']

/-- No rounding happens to an integer up to the bound. -/
theorem exactValue_ofInt {whole : Int} (bounded : whole.natAbs ≤ exactBound) :
    (ofInt whole).exactValue = whole ∧ (ofInt whole).isFinite = true := by
  obtain ⟨size, finite⟩ := magnitude_ofRatio_one (decide (whole < 0)) bounded
  refine ⟨?_, decide_eq_true finite⟩
  rw [exactValue_eq_abs, abs_exactValue, ofInt, isNegative_ofRatio, size]
  have cast : ((whole.natAbs : Int) : ℚ) = |(whole : ℚ)| := by
    rw [Int.natCast_natAbs, Int.cast_abs]
  rw [← Int.cast_natCast, cast]
  by_cases negative : whole < 0
  · rw [if_pos (decide_eq_true negative), abs_of_neg (Int.cast_lt_zero.mpr negative), neg_neg]
  · rw [if_neg (by simpa using negative), abs_of_nonneg (by exact_mod_cast not_lt.mp negative)]

/-- A double of more than 53 bits is whole. -/
theorem exists_whole_of_large {x : Double} (large : (exactBound : ℚ) ≤ |x.exactValue|) :
    ∃ whole : Int, x.exactValue = whole := by
  have size : |x.exactValue| = x.mantissa * 2 ^ x.exponent := by
    rw [exactValue, abs_mul, abs_of_pos (show (0 : ℚ) < 2 ^ x.exponent by positivity),
      signedMantissa]
    split <;> simp
  have above : 0 ≤ x.exponent := by
    by_contra negative
    have short : (x.mantissa : ℚ) < exactBound := by exact_mod_cast x.mantissa_lt
    have small : (2 : ℚ) ^ x.exponent ≤ 1 := zpow_le_one_of_nonpos₀ (by norm_num) (by omega)
    have nonneg : (0 : ℚ) ≤ x.mantissa := Nat.cast_nonneg _
    have product := mul_le_of_le_one_right nonneg small
    linarith
  obtain ⟨places, exponent⟩ := Int.eq_ofNat_of_zero_le above
  refine ⟨x.signedMantissa * 2 ^ places, ?_⟩
  rw [exactValue, exponent, zpow_natCast]
  push_cast
  rfl

/-- A whole number rounds to a whole number: up to the bound to itself, and beyond it to a double
that is no less than the bound. -/
theorem RoundsTo.exists_whole {x : Double} {number : Int} (rounds : RoundsTo x number) :
    ∃ whole : Int, x.exactValue = whole := by
  by_cases small : number.natAbs ≤ exactBound
  · exact ⟨number, rounds.of_exact (exactValue_ofInt small).1⟩
  · apply exists_whole_of_large
    by_contra short
    have farther : |(number : ℚ)| - exactBound < |x.exactValue - number| := by
      have distance := abs_sub_abs_le_abs_sub (number : ℚ) x.exactValue
      rw [abs_sub_comm] at distance
      linarith
    have top : ((exactBound : Int) : ℚ) = exactBound := Int.cast_natCast _
    rcases Int.lt_or_le number 0 with negative | positive
    · have near := rounds.nearest (ofInt (-exactBound))
      have below : (number : ℚ) ≤ -exactBound := by
        have long : number ≤ -exactBound := by omega
        exact_mod_cast long
      have size : |(number : ℚ)| = -number := abs_of_neg (by exact_mod_cast negative)
      have distance : |(-exactBound : ℚ) - number| = -exactBound - number :=
        abs_of_nonneg (by linarith)
      rw [(exactValue_ofInt (by simp)).1, Int.cast_neg, top, distance] at near
      linarith
    · have near := rounds.nearest (ofInt exactBound)
      have above : (exactBound : ℚ) ≤ number := by
        have long : (exactBound : Int) ≤ number := by omega
        exact_mod_cast long
      have size : |(number : ℚ)| = number := abs_of_nonneg (by exact_mod_cast positive)
      have distance : |(exactBound : ℚ) - number| = -(exactBound - number) :=
        abs_of_nonpos (by linarith)
      rw [(exactValue_ofInt (by simp)).1, top, distance] at near
      linarith

end Nearest

/-- The number of a sign and a size. -/
def signed (negative : Bool) (size : ℚ) : ℚ :=
  if negative then -size else size

theorem abs_signed (negative : Bool) {size : ℚ} (nonneg : 0 ≤ size) :
    |signed negative size| = size := by
  unfold signed
  split
  · rw [abs_neg, abs_of_nonneg nonneg]
  · exact abs_of_nonneg nonneg

/-- The double is what is read for a number of the sign and the size: the nearest one, and an
infinity when the number is in the interval of no finite double. -/
structure IsRounding (reading : Double) (negative : Bool) (size : ℚ) : Prop where
  sign : reading.isNegative = negative
  magnitude : ∀ {x : Double}, x.isFinite = true →
    ((RoundingInterval.ofDouble x).Contains size ↔ x.magnitude = reading.magnitude)

namespace IsRounding

variable {negative : Bool} {size : ℚ}

theorem ofRatio (negative : Bool) (numerator : Nat) {denominator : Nat}
    (positive : 0 < denominator) :
    IsRounding (Double.ofRatio negative numerator denominator) negative
      (numerator / denominator) where
  sign := isNegative_ofRatio _ _ _
  magnitude := fun finite => contains_iff_magnitude_ofRatio finite _ _ positive

/-- A number beyond all intervals is infinite. -/
theorem infinity (negative : Bool) (huge : 2 ^ 1024 ≤ size) :
    IsRounding (Double.infinity negative) negative size where
  sign := isNegative_ofMagnitude infinityMagnitude_lt
  magnitude := by
    intro x finite
    have below : x.magnitude < infinityMagnitude := of_decide_eq_true finite
    rw [Double.infinity, magnitude_ofMagnitude infinityMagnitude_lt, contains_iff_attracts]
    refine iff_of_false (fun attracts => ?_) below.ne
    exact absurd (attracts.between.2.trans_lt (halfway_lt_of_finite finite)) (not_lt.mpr huge)

/-- A number that is no more than half of the least double is zero. -/
theorem zero (negative : Bool) (nonneg : 0 ≤ size) (tiny : size ≤ 1 / 2 ^ 1075) :
    IsRounding (Double.zero negative) negative size where
  sign := isNegative_ofMagnitude (by decide)
  magnitude := by
    intro x finite
    have attracts := attracts_zero nonneg tiny
    rw [Double.zero, magnitude_ofMagnitude (by decide), contains_iff_attracts]
    exact ⟨fun inside => eq_of_attracts inside attracts, fun none => none ▸ attracts⟩

/-- A finite reading is the double to which the number rounds. -/
theorem roundsTo {reading : Double} (isRounding : IsRounding reading negative size)
    (nonneg : 0 ≤ size) (finite : reading.isFinite = true) :
    RoundsTo reading (signed negative size) where
  finite := finite
  sign := by
    rw [isRounding.sign, signed]
    split
    · exact neg_nonpos.mpr nonneg
    · exact nonneg
  inside := by
    rw [abs_signed negative nonneg]
    exact (isRounding.magnitude finite).mpr rfl

/-- The reading is finite when the number rounds to a double at all. -/
theorem isFinite_of_roundsTo {reading x : Double} (isRounding : IsRounding reading negative size)
    (nonneg : 0 ≤ size) (rounds : RoundsTo x (signed negative size)) :
    reading.isFinite = true := by
  have inside := rounds.inside
  rw [abs_signed negative nonneg] at inside
  have same := (isRounding.magnitude rounds.finite).mp inside
  have finite := rounds.finite
  rwa [isFinite, same] at finite

/-- What is no greater than a finite double is read as a finite double. -/
theorem isFinite_of_le {reading y : Double} (isRounding : IsRounding reading negative size)
    (nonneg : 0 ≤ size) (finite : y.isFinite = true) (bounded : size ≤ |y.exactValue|) :
    reading.isFinite = true := by
  obtain ⟨magnitude, attracts⟩ := exists_attracts nonneg
  have atMost : magnitude ≤ y.magnitude := by
    by_contra greater
    have start : lowerEnd magnitude = halfway (magnitude - 1) := if_neg (by omega)
    have ends := halfway_strictMono.monotone (show y.magnitude ≤ magnitude - 1 by omega)
    have reach := attracts.between.1
    have above := numberOf_lt_halfway y.magnitude
    rw [abs_exactValue] at bounded
    rw [start] at reach
    linarith
  have below : magnitude < infinityMagnitude :=
    Nat.lt_of_le_of_lt atMost (of_decide_eq_true finite)
  have pattern : (ofMagnitude false magnitude).magnitude = magnitude :=
    magnitude_ofMagnitude (Nat.lt_trans below infinityMagnitude_lt)
  have same := (isRounding.magnitude (x := ofMagnitude false magnitude)
    (by rw [isFinite, pattern]; exact decide_eq_true below)).mp
    (by rw [contains_iff_attracts, pattern]; exact attracts)
  rw [isFinite, ← same, pattern]
  exact decide_eq_true below

/-- Numbers of one reading share all their readings. -/
theorem transfer {reading other : Double} {otherSize : ℚ}
    (isRounding : IsRounding reading negative size) (one : IsRounding other negative size)
    (another : IsRounding other negative otherSize) : IsRounding reading negative otherSize where
  sign := isRounding.sign
  magnitude := fun finite => (another.magnitude finite).trans
    ((one.magnitude finite).symm.trans (isRounding.magnitude finite))

end IsRounding

end Double

namespace Numeral

/-- The size of the number, its sign aside. -/
def size (numeral : Numeral) : ℚ :=
  numeral.significand * 10 ^ numeral.exponent

theorem size_nonneg (numeral : Numeral) : 0 ≤ numeral.size := by
  unfold size
  positivity

/-- The bits of a number tell its decimal places roughly. -/
theorem between_pow_log2 {number : Nat} (nonzero : number ≠ 0) :
    10 ^ (number.log2 / 4) ≤ number ∧ number < 10 ^ (number.log2 / 3 + 1) := by
  constructor
  · calc 10 ^ (number.log2 / 4) ≤ (2 ^ 4) ^ (number.log2 / 4) :=
          Nat.pow_le_pow_left (by decide) _
      _ = 2 ^ (4 * (number.log2 / 4)) := (Nat.pow_mul _ _ _).symm
      _ ≤ 2 ^ number.log2 := Nat.pow_le_pow_right (by decide) (Nat.mul_div_le _ _)
      _ ≤ number := Nat.log2_self_le nonzero
  · calc number < 2 ^ (number.log2 + 1) := Nat.lt_log2_self
      _ ≤ 2 ^ (3 * (number.log2 / 3 + 1)) := Nat.pow_le_pow_right (by decide) (by omega)
      _ = (2 ^ 3) ^ (number.log2 / 3 + 1) := Nat.pow_mul _ _ _
      _ ≤ 10 ^ (number.log2 / 3 + 1) := Nat.pow_le_pow_left (by decide) _

/-- Numbers of more than 400 places are beyond all doubles. -/
theorem huge_of_places {number : ℚ} {places : Int} (many : 400 < places)
    (reach : (10 : ℚ) ^ places ≤ number) : 2 ^ 1024 ≤ number := by
  refine le_trans ?_ reach
  calc (2 : ℚ) ^ 1024 ≤ (2 ^ 3) ^ 401 := by
        rw [← pow_mul]
        exact pow_le_pow_right₀ (by norm_num) (by norm_num)
    _ ≤ 10 ^ 401 := pow_le_pow_left₀ (by norm_num) (by norm_num) _
    _ = 10 ^ ((401 : Nat) : Int) := (zpow_natCast _ _).symm
    _ ≤ 10 ^ places := zpow_le_zpow_right₀ (by norm_num) (by omega)

/-- Numbers whose first digit is behind 400 zeros are below all doubles but zero. -/
theorem tiny_of_places {number : ℚ} {places : Int} (many : places < -400)
    (reach : number ≤ (10 : ℚ) ^ places) : number ≤ 1 / 2 ^ 1075 := by
  refine reach.trans ?_
  calc (10 : ℚ) ^ places ≤ 10 ^ (-(400 : Nat) : Int) :=
        zpow_le_zpow_right₀ (by norm_num) (by omega)
    _ = 1 / 10 ^ 400 := by rw [zpow_neg, zpow_natCast, one_div]
    _ ≤ 1 / (2 ^ 3) ^ 400 :=
        one_div_le_one_div_of_le (by positivity) (pow_le_pow_left₀ (by norm_num) (by norm_num) _)
    _ ≤ 1 / 2 ^ 1075 := by
        rw [← pow_mul]
        exact one_div_le_one_div_of_le (by positivity)
          (pow_le_pow_right₀ (by norm_num) (by norm_num))

/-- A numeral is read as the double nearest to its number. -/
theorem isRounding_toDouble (numeral : Numeral) :
    Double.IsRounding numeral.toDouble numeral.negative numeral.size := by
  obtain ⟨negative, significand, exponent⟩ := numeral
  unfold toDouble
  dsimp only
  by_cases zero : significand = 0
  · rw [if_pos zero]
    refine .zero negative (size_nonneg _) ?_
    simp [size, zero]
  · obtain ⟨lower, upper⟩ := between_pow_log2 zero
    have ten : (10 : ℚ) ≠ 0 := by norm_num
    rw [if_neg zero]
    split
    · next large =>
      refine .infinity negative (huge_of_places large ?_)
      rw [add_comm, zpow_add₀ ten, zpow_natCast, size]
      exact mul_le_mul_of_nonneg_right (by exact_mod_cast lower) (by positivity)
    · split
      · next small =>
        refine .zero negative (size_nonneg _) (tiny_of_places small ?_)
        rw [add_comm, zpow_add₀ ten, zpow_natCast, size]
        exact mul_le_mul_of_nonneg_right (by exact_mod_cast upper.le) (by positivity)
      · split
        · next whole =>
          obtain ⟨places, rfl⟩ := Int.eq_ofNat_of_zero_le whole
          have rounding := Double.IsRounding.ofRatio negative
            (significand * Nat.pow 10 places) Nat.one_pos
          rw [Int.toNat_natCast]
          simpa [size] using rounding
        · next broken =>
          obtain ⟨places, opposite⟩ := Int.eq_ofNat_of_zero_le (show 0 ≤ -exponent by omega)
          have rounding := Double.IsRounding.ofRatio negative significand
            (show 0 < Nat.pow 10 places from Nat.pow_pos (by decide))
          rw [opposite, Int.toNat_natCast]
          simpa [size, show exponent = -(places : Int) by omega, zpow_neg, div_eq_mul_inv] using
            rounding

end Numeral

end Medals
