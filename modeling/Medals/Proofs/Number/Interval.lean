import Medals.Number.Writing
import Medals.Proofs.Number.Exact

/-!
# The shortest decimal tells its double

The numbers that round to a double form an interval, and the intervals of two magnitudes have no
number in common (`Double.magnitude_eq_of_contains`): neighbours meet in the point halfway between
them, which belongs to the one with the even significand. The search for the shortest decimal ends
inside the interval (`Double.contains_shortest`), as one of its grids is finer than the interval is
wide. So a decimal is the shortest one of a single magnitude. The powers of ten that it takes are
bounded (`Double.leadingPower_shortest`).
-/

namespace Medals

namespace Decimal

/-- The number that a decimal stands for. -/
def value (decimal : Decimal) : ℚ :=
  decimal.digits * 10 ^ decimal.exponent

/-- Dropping zeros does not change the number. -/
theorem value_stripZeros (digits : Nat) (exponent : Int) (fuel : Nat) :
    (stripZeros digits exponent fuel).value = digits * 10 ^ exponent := by
  induction fuel generalizing digits exponent with
  | zero => rfl
  | succ fuel ih =>
    rw [stripZeros]
    split
    · next divisible =>
      have shorter : ((digits / 10 : Nat) : ℚ) * 10 = digits := by
        exact_mod_cast Nat.div_mul_cancel (Nat.dvd_of_mod_eq_zero divisible)
      rw [ih, zpow_add_one₀ (by norm_num), ← shorter]
      ring
    · rfl

theorem lt_pow_length_repr (number : Nat) : number < 10 ^ number.repr.length :=
  (Nat.length_repr_le_iff Nat.length_repr_pos).mp (Nat.le_refl _)

theorem pow_length_repr_le {number : Nat} (positive : 0 < number) :
    10 ^ (number.repr.length - 1) ≤ number := by
  by_cases single : number.repr.length - 1 = 0
  · rw [single]
    exact positive
  · refine Nat.le_of_not_lt fun less => ?_
    have shorter := (Nat.length_repr_le_iff (Nat.pos_of_ne_zero single)).mpr less
    omega

/-- A decimal lies between the power of ten of its first digit and the next. -/
theorem value_between {decimal : Decimal} (positive : 0 < decimal.digits) :
    (10 : ℚ) ^ decimal.leadingPower ≤ decimal.value ∧
      decimal.value < 10 ^ (decimal.leadingPower + 1) := by
  have some : 0 < decimal.digits.repr.length := Nat.length_repr_pos
  have lower : (10 : ℚ) ^ (decimal.digits.repr.length - 1) ≤ decimal.digits := by
    exact_mod_cast pow_length_repr_le positive
  have upper : (decimal.digits : ℚ) < 10 ^ decimal.digits.repr.length := by
    exact_mod_cast lt_pow_length_repr decimal.digits
  have scaled : (0 : ℚ) < 10 ^ decimal.exponent := by positivity
  constructor
  · rw [leadingPower, show decimal.exponent + (decimal.digits.repr.length : Int) - 1 =
      ((decimal.digits.repr.length - 1 : Nat) : Int) + decimal.exponent by omega,
      zpow_add₀ (by norm_num), zpow_natCast]
    exact mul_le_mul_of_nonneg_right lower scaled.le
  · rw [leadingPower, show decimal.exponent + (decimal.digits.repr.length : Int) - 1 + 1 =
      (decimal.digits.repr.length : Int) + decimal.exponent by omega, zpow_add₀ (by norm_num),
      zpow_natCast]
    exact mul_lt_mul_of_pos_right upper scaled

/-- Ten is more than eight, so that a decimal between two powers of two has its first digit within a
third of them. -/
theorem leadingPower_between {decimal : Decimal} (positive : 0 < decimal.digits) {below above : Nat}
    (small : (2 : ℚ) ^ (-(below : Nat) : Int) ≤ decimal.value) (large : decimal.value ≤ 2 ^ above) :
    -(below : Int) ≤ 3 * (decimal.leadingPower + 1) ∧ 3 * decimal.leadingPower ≤ above := by
  have eights : ∀ count : Nat, (2 : ℚ) ^ (3 * count) ≤ 10 ^ count := by
    intro count
    rw [pow_mul]
    exact pow_le_pow_left₀ (by norm_num) (by norm_num) count
  obtain ⟨lower, upper⟩ := value_between positive
  generalize decimal.leadingPower = power at *
  constructor
  · rcases Int.le_total 0 (power + 1) with up | down
    · omega
    · obtain ⟨count, opposite⟩ := Int.eq_ofNat_of_zero_le (show 0 ≤ -(power + 1) by omega)
      have reach := small.trans upper.le
      rw [show power + 1 = -(count : Int) by omega, zpow_neg, zpow_neg, zpow_natCast, zpow_natCast,
        inv_le_inv₀ (by positivity) (by positivity)] at reach
      have bits := (pow_le_pow_iff_right₀ (by norm_num)).mp ((eights count).trans reach)
      omega
  · rcases Int.le_total 0 power with up | down
    · obtain ⟨count, rfl⟩ := Int.eq_ofNat_of_zero_le up
      rw [zpow_natCast] at lower
      have bits := (pow_le_pow_iff_right₀ (by norm_num)).mp
        ((eights count).trans (lower.trans large))
      omega
    · omega

end Decimal

namespace RoundingInterval

/-- The number lies in the interval. -/
def Contains (interval : RoundingInterval) (number : ℚ) : Prop :=
  if interval.closed then
    interval.low ≤ number * interval.denominator ∧ number * interval.denominator ≤ interval.high
  else interval.low < number * interval.denominator ∧ number * interval.denominator < interval.high

/-- The ends are apart from the number, and the lower one by no less than a part in `2 ^ 55`. -/
structure Proper (interval : RoundingInterval) : Prop where
  denominator_pos : 0 < interval.denominator
  low_lt : interval.low < interval.middle
  lt_high : interval.middle < interval.high
  wide : interval.middle ≤ 2 ^ 55 * (interval.middle - interval.low)

theorem contains_of_holds {interval : RoundingInterval} {numerator scale : Nat} {number : ℚ}
    (positive : 0 < scale) (same : number * interval.denominator * scale = numerator)
    (holds : interval.holds numerator scale = true) : interval.Contains number := by
  have scaled : (0 : ℚ) < scale := by exact_mod_cast positive
  have below : ∀ bound : Nat,
      (bound : ℚ) ≤ number * interval.denominator ↔ bound * scale ≤ numerator := by
    intro bound
    rw [← mul_le_mul_iff_left₀ scaled, same]
    exact_mod_cast Iff.rfl
  have above : ∀ bound : Nat,
      number * interval.denominator ≤ bound ↔ numerator ≤ bound * scale := by
    intro bound
    rw [← mul_le_mul_iff_left₀ scaled, same]
    exact_mod_cast Iff.rfl
  unfold RoundingInterval.holds at holds
  unfold Contains
  split at holds
  · next closed =>
    rw [if_pos closed, below, above]
    simpa only [Bool.and_eq_true, decide_eq_true_eq] using holds
  · next opened =>
    rw [if_neg opened, ← not_le, ← not_le, below, above]
    simpa only [Bool.and_eq_true, decide_eq_true_eq, not_le] using holds

section Grid

variable {tie : Decimal.Tie} {interval : RoundingInterval}

/-- The factor that makes the points of a grid whole over the interval's denominator. -/
def gridScale (exponent : Int) : Nat :=
  if 0 ≤ exponent then 1 else Nat.pow 10 (-exponent).toNat

/-- The distance of the points of a grid, scaled. -/
def gridStep (interval : RoundingInterval) (exponent : Int) : Nat :=
  if 0 ≤ exponent then interval.denominator * Nat.pow 10 exponent.toNat else interval.denominator

theorem gridScale_pos (exponent : Int) : 0 < gridScale exponent := by
  unfold gridScale
  split
  · exact Nat.one_pos
  · exact Nat.pow_pos (by decide)

theorem gridStep_eq (interval : RoundingInterval) (exponent : Int) :
    (interval.gridStep exponent : ℚ) =
      10 ^ exponent * interval.denominator * gridScale exponent := by
  unfold gridStep gridScale
  split
  · next positive =>
    obtain ⟨places, rfl⟩ := Int.eq_ofNat_of_zero_le positive
    simp only [Int.toNat_natCast, Nat.pow_eq, Nat.cast_mul, Nat.cast_pow, Nat.cast_ofNat,
      Nat.cast_one, zpow_natCast]
    ring
  · next negative =>
    obtain ⟨places, opposite⟩ := Int.eq_ofNat_of_zero_le (show 0 ≤ -exponent by omega)
    rw [show exponent = -(places : Int) by omega, Int.neg_neg, Int.toNat_natCast, zpow_neg,
      zpow_natCast, Nat.pow_eq, Nat.cast_pow, Nat.cast_ofNat]
    field_simp

theorem gridStep_pos (positive : 0 < interval.denominator) (exponent : Int) :
    0 < interval.gridStep exponent := by
  unfold gridStep
  split
  · exact Nat.mul_pos positive (Nat.pow_pos (by decide))
  · exact positive

/-- A hit is a multiple of the spacing that the interval holds. -/
theorem holds_of_gridPoint? {exponent : Int} {digits : Nat}
    (found : interval.gridPoint? tie exponent = some digits) :
    interval.holds (digits * interval.gridStep exponent) (gridScale exponent) = true ∧
      0 < digits := by
  unfold gridPoint? at found
  extract_lets step scale number below above belowInside aboveInside at found
  have ofBelow : belowInside = true → interval.holds (below * step) scale = true ∧ 0 < below := by
    simp [belowInside]
  have ofAbove : aboveInside = true → interval.holds (above * step) scale = true ∧ 0 < above :=
    fun inside => ⟨inside, Nat.succ_pos _⟩
  have either : digits = below ∧ belowInside = true ∨ digits = above ∧ aboveInside = true := by
    split at found
    · next both =>
      obtain ⟨lower, upper⟩ := Bool.and_eq_true_iff.mp both
      grind
    · grind
  rcases either with ⟨rfl, inside⟩ | ⟨rfl, inside⟩
  · exact ofBelow inside
  · exact ofAbove inside

/-- A grid that is finer than the lower half of the interval has a point in it. -/
theorem exists_gridPoint? {exponent : Int} (proper : interval.Proper)
    (fine : interval.low * gridScale exponent + interval.gridStep exponent ≤
      interval.middle * gridScale exponent) :
    ∃ digits, interval.gridPoint? tie exponent = some digits := by
  unfold gridPoint?
  extract_lets step scale number below above belowInside aboveInside
  have scaled : 0 < scale := gridScale_pos exponent
  have fineStep : interval.low * scale + step ≤ number := fine
  have stepPositive : 0 < step := gridStep_pos proper.denominator_pos exponent
  have split : below * step + number % step = number := by
    rw [Nat.mul_comm]
    exact Nat.div_add_mod number step
  have rest : number % step < step := Nat.mod_lt _ stepPositive
  have bounded : number < interval.high * scale := Nat.mul_lt_mul_of_pos_right proper.lt_high scaled
  have inside : belowInside = true := by
    have lower : interval.low * scale < below * step := by omega
    have positiveBelow : 0 < below := by
      refine Nat.pos_of_ne_zero fun none => ?_
      rw [none] at lower
      omega
    have held : interval.holds (below * step) scale = true := by
      unfold RoundingInterval.holds
      split
      · simp only [Bool.and_eq_true, decide_eq_true_eq]
        omega
      · simp only [Bool.and_eq_true, decide_eq_true_eq]
        omega
    simp [belowInside, held, positiveBelow]
  rw [inside]
  cases aboveInside with
  | true =>
    simp only [Bool.and_self, if_true]
    split
    · exact ⟨_, rfl⟩
    · split
      · exact ⟨_, rfl⟩
      · cases tie <;> exact ⟨_, rfl⟩
  | false => exact ⟨_, rfl⟩

/-- The search ends on a grid with a point in the interval, if there is one within the fuel. -/
theorem search_of_gridPoint? {exponent : Int} {fuel count digits : Nat} (enough : count < fuel)
    (found : interval.gridPoint? tie (exponent - count) = some digits) :
    ∃ reached digits, interval.gridPoint? tie reached = some digits ∧
      interval.search tie exponent fuel = Decimal.stripZeros digits reached 20 := by
  induction fuel generalizing exponent count with
  | zero => exact absurd enough (Nat.not_lt_zero count)
  | succ fuel ih =>
    rw [search]
    cases here : interval.gridPoint? tie exponent with
    | some first => exact ⟨exponent, first, here, rfl⟩
    | none =>
      cases count with
      | zero => simp [here] at found
      | succ count =>
        refine ih (show count < fuel from Nat.lt_of_succ_lt_succ enough) ?_
        rwa [show exponent - 1 - (count : Int) = exponent - (count + 1 : Nat) by omega]

end Grid

section Start

variable {interval : RoundingInterval}

/-- The first grid to try is at most ten times as wide as the number. -/
theorem pow_topExponent_le (middle : 0 < interval.middle) (denominator : 0 < interval.denominator) :
    (10 : ℚ) ^ (interval.topExponent - 1) * interval.denominator ≤ interval.middle := by
  unfold topExponent
  split
  · next above =>
    have quotient : 0 < interval.middle / interval.denominator := Nat.div_pos above denominator
    have digits : 0 < (interval.middle / interval.denominator).repr.length := Nat.length_repr_pos
    have power := Nat.mul_le_of_le_div _ _ _ (Decimal.pow_length_repr_le quotient)
    rw [show (((interval.middle / interval.denominator).repr.length : Int) - 1) =
      ((interval.middle / interval.denominator).repr.length - 1 : Nat) by omega, zpow_natCast]
    exact_mod_cast power
  · have power := (Nat.div_lt_iff_lt_mul middle).mp
      (Decimal.lt_pow_length_repr (interval.denominator / interval.middle))
    rw [show (1 - ((interval.denominator / interval.middle).repr.length : Int) - 1) =
      -((interval.denominator / interval.middle).repr.length : Int) by omega, zpow_neg,
      zpow_natCast, inv_mul_le_iff₀ (by positivity)]
    exact_mod_cast Nat.le_of_lt power

/-- Seventeen places behind the first digit a grid is finer than the interval. -/
theorem fine_of_topExponent (proper : interval.Proper) :
    interval.low * gridScale (interval.topExponent - 18) +
        interval.gridStep (interval.topExponent - 18) ≤
      interval.middle * gridScale (interval.topExponent - 18) := by
  have top := pow_topExponent_le (Nat.zero_lt_of_lt proper.low_lt) proper.denominator_pos
  have step := gridStep_eq interval (interval.topExponent - 18)
  have power : (10 : ℚ) ^ (interval.topExponent - 18) =
      10 ^ (interval.topExponent - 1) / 10 ^ 17 := by
    rw [show interval.topExponent - 18 = interval.topExponent - 1 - (17 : Nat) by omega,
      zpow_sub₀ (by norm_num), zpow_natCast]
  have wideCast : (interval.middle : ℚ) ≤ 2 ^ 55 * (interval.middle - interval.low) := by
    have cast : ((interval.middle - interval.low : Nat) : ℚ) = interval.middle - interval.low :=
      Nat.cast_sub proper.low_lt.le
    rw [← cast]
    exact_mod_cast proper.wide
  have part : (10 : ℚ) ^ (interval.topExponent - 18) * interval.denominator ≤
      interval.middle - interval.low := by
    rw [power, div_mul_eq_mul_div, div_le_iff₀ (by norm_num)]
    linarith
  have scaled : (0 : ℚ) ≤ gridScale (interval.topExponent - 18) := Nat.cast_nonneg _
  have product := mul_le_mul_of_nonneg_right part scaled
  rw [← step] at product
  have cast : ((interval.low * gridScale (interval.topExponent - 18) +
      interval.gridStep (interval.topExponent - 18) : Nat) : ℚ) ≤
        (interval.middle * gridScale (interval.topExponent - 18) : Nat) := by
    push_cast
    linarith
  exact_mod_cast cast

/-- The search finds a number of the interval. -/
theorem contains_search (proper : interval.Proper) (tie : Decimal.Tie) :
    interval.Contains (interval.search tie interval.topExponent 24).value ∧
      0 < (interval.search tie interval.topExponent 24).value := by
  obtain ⟨first, found⟩ := @exists_gridPoint? tie _ _ proper (fine_of_topExponent proper)
  obtain ⟨reached, digits, hit, searched⟩ := search_of_gridPoint? (show 18 < 24 by decide) found
  obtain ⟨holds, positive⟩ := holds_of_gridPoint? hit
  rw [searched, Decimal.value_stripZeros]
  constructor
  · refine contains_of_holds (gridScale_pos reached) ?_ holds
    rw [Nat.cast_mul, gridStep_eq]
    ring
  · have cast : (0 : ℚ) < digits := by exact_mod_cast positive
    positivity

end Start

end RoundingInterval

namespace Double

/-- The exponent field stands in front of the fraction. -/
theorem fields_eq (x : Double) : hiddenBit * x.exponentField + x.fraction = x.magnitude :=
  Nat.div_add_mod _ _

section Quarters

/-- The lower end of the rounding interval in quarters of the last place. -/
def lowQuarters (x : Double) : Nat :=
  if x.fraction = 0 ∧ 1 < x.exponentField then 4 * x.mantissa - 1 else 4 * x.mantissa - 2

/-- The rounding interval is given in quarters of the last place. -/
theorem ofDouble_eq (x : Double) : ∃ factor denominator : Nat, 0 < factor ∧ 0 < denominator ∧
    (factor : ℚ) = 2 ^ (x.exponent - 2) * denominator ∧
    RoundingInterval.ofDouble x = ⟨x.lowQuarters * factor, 4 * x.mantissa * factor,
      (4 * x.mantissa + 2) * factor, denominator, decide (x.mantissa % 2 = 0)⟩ := by
  by_cases large : 2 ≤ x.exponent
  · obtain ⟨places, exponent⟩ := Int.eq_ofNat_of_zero_le (show 0 ≤ x.exponent - 2 by omega)
    refine ⟨2 ^ places, 1, Nat.two_pow_pos _, Nat.one_pos, ?_, ?_⟩
    · rw [exponent]
      simp
    · simp [RoundingInterval.ofDouble, lowQuarters, large, exponent]
  · obtain ⟨places, exponent⟩ := Int.eq_ofNat_of_zero_le (show 0 ≤ 2 - x.exponent by omega)
    refine ⟨1, 2 ^ places, Nat.one_pos, Nat.two_pow_pos _, ?_, ?_⟩
    · rw [show x.exponent - 2 = -(places : Int) by omega, zpow_neg, zpow_natCast]
      push_cast
      field_simp
    · simp [RoundingInterval.ofDouble, lowQuarters, large, exponent]

/-- Without the zeros, a quarter of the last place is left on either side. -/
theorem lowQuarters_lt {x : Double} (nonzero : x.mantissa ≠ 0) :
    x.lowQuarters < 4 * x.mantissa := by
  unfold lowQuarters
  split <;> omega

/-- The interval reaches from one end to the other, and its ends belong to it when the significand
is even. -/
theorem contains_ofDouble_iff (x : Double) (number : ℚ) :
    (RoundingInterval.ofDouble x).Contains number ↔
      if x.mantissa % 2 = 0 then
        x.lowQuarters * 2 ^ (x.exponent - 2) ≤ number ∧
          number ≤ (4 * x.mantissa + 2) * 2 ^ (x.exponent - 2)
      else
        x.lowQuarters * 2 ^ (x.exponent - 2) < number ∧
          number < (4 * x.mantissa + 2) * 2 ^ (x.exponent - 2) := by
  obtain ⟨factor, denominator, -, positive, ratio, interval⟩ := ofDouble_eq x
  have scaled : (0 : ℚ) < denominator := by exact_mod_cast positive
  simp only [interval, RoundingInterval.Contains, decide_eq_true_eq, Nat.cast_mul, ratio,
    Nat.cast_add, Nat.cast_ofNat, ← mul_assoc, mul_le_mul_iff_left₀ scaled,
    mul_lt_mul_iff_left₀ scaled]

theorem proper_ofDouble {x : Double} (nonzero : x.mantissa ≠ 0) :
    (RoundingInterval.ofDouble x).Proper := by
  obtain ⟨factor, denominator, factorPositive, positive, -, interval⟩ := ofDouble_eq x
  have below := lowQuarters_lt nonzero
  rw [interval]
  refine ⟨positive, Nat.mul_lt_mul_of_pos_right below factorPositive,
    Nat.mul_lt_mul_of_pos_right (by omega) factorPositive, ?_⟩
  have significand := x.mantissa_lt
  have part : 1 ≤ 4 * x.mantissa - x.lowQuarters := by omega
  have wide : 4 * x.mantissa ≤ 2 ^ 55 * (4 * x.mantissa - x.lowQuarters) := by
    simp only [hiddenBit] at significand
    omega
  dsimp only
  rw [← Nat.sub_mul, ← Nat.mul_assoc]
  exact Nat.mul_le_mul_right factor wide

/-- The shortest decimal lies in the interval, and is not zero. -/
theorem contains_shortest_of_ne_zero {x : Double} (nonzero : x.mantissa ≠ 0) (tie : Decimal.Tie) :
    (RoundingInterval.ofDouble x).Contains (x.shortest tie).value ∧
      0 < (x.shortest tie).value := by
  rw [shortest, if_neg nonzero]
  exact RoundingInterval.contains_search (proper_ofDouble nonzero) tie

/-- The shortest decimal rounds to its double. -/
theorem contains_shortest (x : Double) (tie : Decimal.Tie) :
    (RoundingInterval.ofDouble x).Contains (x.shortest tie).value := by
  by_cases zero : x.mantissa = 0
  · have low : x.lowQuarters = 0 := by simp [lowQuarters, zero]
    have value : (x.shortest tie).value = 0 := by simp [shortest, zero, Decimal.value]
    rw [contains_ofDouble_iff, if_pos (by rw [zero]), low, value, zero]
    constructor
    · simp
    · positivity
  · exact (contains_shortest_of_ne_zero zero tie).1

end Quarters

section Halfway

/-- The size of a magnitude in units of the smallest positive double. -/
def unitsOf (magnitude : Nat) : Nat :=
  (if magnitude / hiddenBit = 0 then magnitude % hiddenBit
    else hiddenBit + magnitude % hiddenBit) * 2 ^ (magnitude / hiddenBit - 1)

theorem unitsOf_magnitude (x : Double) :
    unitsOf x.magnitude = x.mantissa * 2 ^ (x.exponentField - 1) :=
  rfl

/-- The next magnitude is one unit in the last place greater. -/
theorem unitsOf_succ (magnitude : Nat) :
    unitsOf (magnitude + 1) = unitsOf magnitude + 2 ^ (magnitude / hiddenBit - 1) := by
  have parts := Nat.div_add_mod magnitude hiddenBit
  have fraction : magnitude % hiddenBit < hiddenBit := Nat.mod_lt _ (by decide)
  unfold unitsOf
  generalize magnitude / hiddenBit = field at *
  generalize magnitude % hiddenBit = low at *
  rcases Nat.lt_or_eq_of_le (show low + 1 ≤ hiddenBit from fraction) with inside | full
  · have next : magnitude + 1 = hiddenBit * field + (low + 1) := by omega
    rw [next, Nat.mul_add_div (by decide), Nat.mul_add_mod, Nat.div_eq_of_lt inside,
      Nat.mod_eq_of_lt inside, Nat.add_zero]
    split
    · ring
    · ring
  · -- The fraction runs over into the exponent field.
    have next : magnitude + 1 = hiddenBit * (field + 1) + 0 := by
      rw [Nat.mul_succ]
      omega
    rw [next, Nat.mul_add_div (by decide), Nat.mul_add_mod, Nat.zero_div, Nat.zero_mod]
    simp only [Nat.add_zero, Nat.succ_ne_zero, if_false, Nat.add_sub_cancel]
    rcases Nat.eq_zero_or_pos field with rfl | positive
    · simp only [if_true, Nat.zero_sub, Nat.pow_zero, Nat.mul_one]
      omega
    · obtain ⟨exponent, rfl⟩ := Nat.exists_eq_add_of_le' positive
      simp only [Nat.succ_ne_zero, if_false, Nat.add_sub_cancel]
      rw [← full, Nat.pow_succ]
      ring

theorem unitsOf_strictMono : StrictMono unitsOf :=
  strictMono_nat_of_lt_succ fun magnitude => by
    rw [unitsOf_succ]
    exact Nat.lt_add_of_pos_right (Nat.two_pow_pos _)

/-- The number halfway between a magnitude and the next. -/
def halfway (magnitude : Nat) : ℚ :=
  (unitsOf magnitude + unitsOf (magnitude + 1) : Nat) / 2 ^ 1075

theorem halfway_strictMono : StrictMono halfway := by
  intro smaller greater less
  have one := unitsOf_strictMono less
  have other := unitsOf_strictMono (Nat.succ_lt_succ less)
  refine div_lt_div_of_pos_right ?_ (by positivity)
  exact_mod_cast Nat.add_lt_add one other

/-- A quarter of the last place is a unit, scaled. -/
theorem quarter_eq (x : Double) :
    (2 : ℚ) ^ (x.exponent - 2) = (2 ^ (x.exponentField - 1) : Nat) / 2 ^ 1075 / 2 := by
  rw [exponent_eq, show ((x.exponentField - 1 : Nat) : Int) - 1074 - 2 =
    ((x.exponentField - 1 : Nat) : Int) - 1075 - 1 by omega, zpow_sub₀ (by norm_num),
    zpow_sub₀ (by norm_num), zpow_natCast, zpow_ofNat, zpow_one]
  push_cast
  rfl

/-- The upper end of an interval is halfway to the next magnitude. -/
theorem upper_eq_halfway (x : Double) :
    (4 * x.mantissa + 2 : ℚ) * 2 ^ (x.exponent - 2) = halfway x.magnitude := by
  have field : x.magnitude / hiddenBit = x.exponentField := rfl
  rw [quarter_eq, halfway, unitsOf_succ, unitsOf_magnitude, field]
  generalize (2 : ℚ) ^ 1075 = scale
  push_cast
  ring

/-- The lower end of an interval is halfway from the magnitude before. -/
theorem lower_eq_halfway {x : Double} (nonzero : x.mantissa ≠ 0) :
    (x.lowQuarters : ℚ) * 2 ^ (x.exponent - 2) = halfway (x.magnitude - 1) := by
  have parts := fields_eq x
  have fraction : x.fraction < hiddenBit := Nat.mod_lt _ (by decide)
  have positive : 0 < x.magnitude := by
    refine Nat.pos_of_ne_zero fun zero => nonzero ?_
    simp [mantissa, exponentField, Double.fraction, zero]
  have step := unitsOf_succ (x.magnitude - 1)
  rw [Nat.sub_add_cancel positive] at step
  -- Four units less as many quarters as the next magnitude below is away.
  have ends : x.lowQuarters * 2 ^ (x.exponentField - 1) =
      2 * (unitsOf (x.magnitude - 1) + unitsOf x.magnitude) := by
    obtain ⟨significand, succ⟩ := Nat.exists_eq_add_one_of_ne_zero nonzero
    rw [unitsOf_magnitude, succ] at step
    rw [lowQuarters, unitsOf_magnitude, succ]
    split
    · next narrow =>
      obtain ⟨field, two⟩ := Nat.exists_eq_add_of_le' narrow.2
      have before : (x.magnitude - 1) / hiddenBit = field + 1 := by
        simp only [hiddenBit] at parts ⊢
        omega
      rw [before, two] at step
      rw [two, show 4 * (significand + 1) - 1 = 4 * significand + 3 by omega]
      simp only [Nat.add_sub_cancel, Nat.succ_eq_add_one, show field + 2 - 1 = field + 1 by omega,
        Nat.pow_succ] at step ⊢
      linarith
    · next regular =>
      have before : (x.magnitude - 1) / hiddenBit - 1 = x.exponentField - 1 := by
        have normal : x.exponentField = 0 → x.fraction ≠ 0 := fun subnormal none => nonzero (by
          rw [mantissa, if_pos subnormal, none])
        simp only [hiddenBit] at parts fraction ⊢
        omega
      rw [before] at step
      rw [show 4 * (significand + 1) - 2 = 4 * significand + 2 by omega]
      linarith
  rw [quarter_eq, halfway, Nat.sub_add_cancel positive]
  have cast : (x.lowQuarters : ℚ) * (2 ^ (x.exponentField - 1) : Nat) =
      2 * (unitsOf (x.magnitude - 1) + unitsOf x.magnitude : Nat) := by exact_mod_cast ends
  rw [← mul_div_assoc, ← mul_div_assoc, cast]
  generalize (2 : ℚ) ^ 1075 = scale
  ring

/-- The lower end of the numbers that round to a magnitude. -/
def lowerEnd (magnitude : Nat) : ℚ :=
  if magnitude = 0 then 0 else halfway (magnitude - 1)

/-- The number rounds to the magnitude. It lies between the points halfway to the neighbours, which
go to the even one. There is no greatest magnitude here. -/
def Attracts (magnitude : Nat) (number : ℚ) : Prop :=
  if magnitude % 2 = 0 then lowerEnd magnitude ≤ number ∧ number ≤ halfway magnitude
  else lowerEnd magnitude < number ∧ number < halfway magnitude

theorem Attracts.between {magnitude : Nat} {number : ℚ} (attracts : Attracts magnitude number) :
    lowerEnd magnitude ≤ number ∧ number ≤ halfway magnitude := by
  unfold Attracts at attracts
  split at attracts
  · exact attracts
  · exact ⟨attracts.1.le, attracts.2.le⟩

theorem mantissa_eq_zero_iff (x : Double) : x.mantissa = 0 ↔ x.magnitude = 0 := by
  have parts := fields_eq x
  simp only [mantissa, hiddenBit] at parts ⊢
  split <;> omega

theorem mantissa_mod_two (x : Double) : x.mantissa % 2 = x.magnitude % 2 := by
  have parts := fields_eq x
  simp only [mantissa, hiddenBit] at parts ⊢
  split <;> omega

/-- The interval of a double is that of its magnitude. -/
theorem contains_iff_attracts (x : Double) (number : ℚ) :
    (RoundingInterval.ofDouble x).Contains number ↔ Attracts x.magnitude number := by
  have lower : (x.lowQuarters : ℚ) * 2 ^ (x.exponent - 2) = lowerEnd x.magnitude := by
    by_cases zero : x.mantissa = 0
    · rw [lowerEnd, if_pos ((mantissa_eq_zero_iff x).mp zero)]
      simp [lowQuarters, zero]
    · rw [lowerEnd, if_neg (mt (mantissa_eq_zero_iff x).mpr zero), lower_eq_halfway zero]
  rw [contains_ofDouble_iff, upper_eq_halfway, lower, mantissa_mod_two]
  exact Iff.rfl

/-- Two magnitudes have no number in common that rounds to them. -/
theorem not_lt_of_attracts {smaller greater : Nat} {number : ℚ}
    (one : Attracts smaller number) (other : Attracts greater number) : ¬ smaller < greater := by
  intro less
  have start : lowerEnd greater = halfway (greater - 1) := if_neg (by omega)
  have ends := halfway_strictMono.monotone (show smaller ≤ greater - 1 by omega)
  unfold Attracts at one other
  rw [start] at other
  -- Ends that meet are those of neighbours, of which one is odd and leaves them out.
  by_cases neighbours : smaller = greater - 1
  · have differ : smaller % 2 = 0 → ¬ greater % 2 = 0 := by omega
    by_cases even : smaller % 2 = 0
    · rw [if_pos even] at one
      rw [if_neg (differ even)] at other
      linarith [one.2, other.1]
    · rw [if_neg even] at one
      split at other
      · linarith [one.2, other.1]
      · linarith [one.2, other.1]
  · have apart := halfway_strictMono (show smaller < greater - 1 by omega)
    split at one <;> split at other <;> linarith [one.2, other.1]

theorem eq_of_attracts {left right : Nat} {number : ℚ} (one : Attracts left number)
    (other : Attracts right number) : left = right :=
  Nat.le_antisymm (Nat.le_of_not_lt (not_lt_of_attracts other one))
    (Nat.le_of_not_lt (not_lt_of_attracts one other))

/-- The numbers that round to a double tell its magnitude. -/
theorem magnitude_eq_of_contains {x y : Double} {number : ℚ}
    (one : (RoundingInterval.ofDouble x).Contains number)
    (other : (RoundingInterval.ofDouble y).Contains number) : x.magnitude = y.magnitude :=
  eq_of_attracts ((contains_iff_attracts x number).mp one)
    ((contains_iff_attracts y number).mp other)

end Halfway

/-- The numbers that round to a finite, nonzero double are not out of reach of its powers of two. -/
theorem between_of_contains {x : Double} (finite : x.isFinite = true) (nonzero : x.mantissa ≠ 0)
    {number : ℚ} (inside : (RoundingInterval.ofDouble x).Contains number) :
    (2 : ℚ) ^ (-(1076 : Nat) : Int) ≤ number ∧ number ≤ 2 ^ 1024 := by
  rw [contains_ofDouble_iff] at inside
  have between : x.lowQuarters * (2 : ℚ) ^ (x.exponent - 2) ≤ number ∧
      number ≤ (4 * x.mantissa + 2) * 2 ^ (x.exponent - 2) := by
    split at inside
    · exact inside
    · exact ⟨inside.1.le, inside.2.le⟩
  have quarters : (1 : ℚ) ≤ x.lowQuarters := by
    have some : 1 ≤ x.lowQuarters := by
      unfold lowQuarters
      split <;> omega
    exact_mod_cast some
  have significand : (4 * x.mantissa + 2 : ℚ) ≤ 2 ^ 55 := by
    have bound := x.mantissa_lt
    simp only [hiddenBit] at bound
    have whole : 4 * x.mantissa + 2 ≤ 2 ^ 55 := by omega
    exact_mod_cast whole
  have field : x.exponentField ≤ 2046 := by
    have bound : x.magnitude < infinityMagnitude := of_decide_eq_true finite
    simp only [infinityMagnitude] at bound
    simp only [exponentField, hiddenBit]
    omega
  have least : (2 : ℚ) ^ (-(1076 : Nat) : Int) ≤ 2 ^ (x.exponent - 2) :=
    zpow_le_zpow_right₀ (by norm_num) (by rw [exponent_eq]; omega)
  have most : (2 : ℚ) ^ (x.exponent - 2) ≤ 2 ^ ((969 : Nat) : Int) :=
    zpow_le_zpow_right₀ (by norm_num) (by rw [exponent_eq]; omega)
  constructor
  · have product := mul_le_mul quarters least (by positivity) (by positivity)
    linarith [between.1]
  · have product := mul_le_mul significand most (by positivity) (by positivity)
    rw [zpow_natCast, ← pow_add] at product
    exact between.2.trans product

/-- The first digit of a finite, nonzero double stands within four hundred places of the point. -/
theorem leadingPower_shortest {x : Double} (finite : x.isFinite = true) (nonzero : x.mantissa ≠ 0)
    (tie : Decimal.Tie) : (x.shortest tie).leadingPower.natAbs < 400 := by
  obtain ⟨inside, positive⟩ := contains_shortest_of_ne_zero nonzero tie
  have digits : 0 < (x.shortest tie).digits := by
    refine Nat.pos_of_ne_zero fun none => ?_
    simp [Decimal.value, none] at positive
  obtain ⟨small, large⟩ := between_of_contains finite nonzero inside
  obtain ⟨below, above⟩ := Decimal.leadingPower_between digits small large
  omega

end Double

end Medals
