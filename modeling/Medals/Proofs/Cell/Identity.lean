import Medals.Cell.Key
import Medals.Proofs.Number.Exact

/-!
# The numbers that keys stand for

A key forgets how a number is held: `Cell.key_eq_iff` says that two cells with numbers share their
key when the numbers are equal. There is one pair of numbers besides. The bound up to which a double
has the key of an integer is `2 ^ 63` itself, which is clamped to the greatest 64-bit integer.
-/

namespace Medals

namespace Double

/-- The double `2 ^ 63`, the least above all 64-bit integers. -/
def beyondInt64 : Double := ⟨0x43e0000000000000⟩

theorem toInt?_beyondInt64 : beyondInt64.toInt? = some (2 ^ 63) := by decide +kernel

theorem exactValue_eq_beyond_iff {x : Double} : x.exactValue = 2 ^ 63 ↔ x = beyondInt64 := by
  have value : beyondInt64.exactValue = 2 ^ 63 := by
    have whole := (toInt?_eq_some_iff (show beyondInt64.isFinite = true by decide)).mp
      toInt?_beyondInt64
    exact_mod_cast whole
  have nonzero : beyondInt64.isZero = false := by decide
  rw [← value, exactValue_eq_iff, nonzero]
  simp

/-- The greatest 64-bit integer is odd and has more than 53 bits. -/
theorem exactValue_ne_maxValue (x : Double) : x.exactValue ≠ Int64.maxValue.toInt := by
  have greatest : Int64.maxValue.toInt = 2 ^ 63 - 1 := by decide
  have short : x.signedMantissa < 2 * hiddenBit := by
    have := x.mantissa_lt
    unfold signedMantissa
    split <;> omega
  intro same
  rw [greatest] at same
  rcases Int.le_total 0 x.exponent with positive | negative
  · obtain ⟨places, exponent⟩ := Int.eq_ofNat_of_zero_le positive
    rw [exactValue, exponent, zpow_natCast] at same
    have product : x.signedMantissa * 2 ^ places = 2 ^ 63 - 1 := by exact_mod_cast same
    cases places with
    | zero =>
      simp only [hiddenBit] at short
      omega
    | succ more =>
      rw [Int.pow_succ, ← Int.mul_assoc] at product
      omega
  · obtain ⟨places, exponent⟩ := Int.eq_ofNat_of_zero_le (show 0 ≤ -x.exponent by omega)
    have product := (exactValue_eq_iff_mul (show x.exponent = -(places : Int) by omega)).mp same
    have scale : (0 : Int) < 2 ^ places := Int.pow_pos (by decide)
    have long : (2 ^ 63 - 1 : Int) * 1 ≤ (2 ^ 63 - 1) * 2 ^ places :=
      Int.mul_le_mul_of_nonneg_left scale (by decide)
    simp only [hiddenBit] at short
    omega

theorem exactValue_of_isZero {x : Double} (zero : x.isZero = true) : x.exactValue = 0 := by
  have same : x.exactValue = (Double.zero false).exactValue :=
    exactValue_eq_iff.mpr (.inr ⟨zero, by decide⟩)
  have none := (toInt?_eq_some_iff (show (Double.zero false).isFinite = true by decide)).mp
    (show (Double.zero false).toInt? = some 0 by decide +kernel)
  rw [same, none, Int.cast_zero]

/-- A key that is not that of an integer keeps the pattern. -/
theorem key_eq_integer_or_number (x : Double) :
    (∃ value, x.key = .integer value) ∨ x.key = .number x.bits := by
  unfold key
  split
  · split
    · exact .inl ⟨_, rfl⟩
    · exact .inr rfl
  · exact .inr rfl

/-- A finite double has the key of the integer that it is. The double `2 ^ 63` has that of the
greatest one. -/
theorem key_eq_integer_iff {x : Double} (finite : x.isFinite = true) {value : Int64} :
    x.key = .integer value ↔
      x.exactValue = value.toInt ∨ x = beyondInt64 ∧ value = Int64.maxValue := by
  have lowest := Int64.minValue_le_toInt value
  have greatest := value.toInt_le
  have low : Int64.minValue.toInt = -2 ^ 63 := by decide
  have high : Int64.maxValue.toInt = 2 ^ 63 - 1 := by decide
  unfold key
  cases found : x.toInt? with
  | none =>
    have fractional : ∀ whole : Int, x.exactValue ≠ whole := fun whole same => by
      simp [(toInt?_eq_some_iff finite).mpr same] at found
    have other : x ≠ beyondInt64 := by
      rintro rfl
      simp [toInt?_beyondInt64] at found
    simp [fractional, other]
  | some whole =>
    have exact := (toInt?_eq_some_iff finite).mp found
    have beyond : x = beyondInt64 ↔ whole = 2 ^ 63 := by
      rw [← exactValue_eq_beyond_iff, exact]
      exact_mod_cast Iff.rfl
    rw [exact, Int.cast_inj, beyond]
    dsimp only
    split
    · rw [CellKey.integer.injEq]
      by_cases fits : whole ≤ Int64.maxValue.toInt
      · have kept := Int64.toInt_ofIntClamp (show Int64.minValue.toInt ≤ whole by omega) fits
        rw [← Int64.toInt_inj, kept]
        omega
      · have clamped : Int64.ofIntClamp whole = Int64.maxValue := by
          rw [Int64.ofIntClamp, dif_pos (by omega), dif_neg fits]
        have outside : whole ≠ value.toInt := by omega
        have bound : whole = 2 ^ 63 := by omega
        rw [clamped, or_iff_right outside, and_iff_right bound, eq_comm]
    · have outside : whole ≠ value.toInt := by omega
      have below : whole ≠ 2 ^ 63 := by omega
      rw [or_iff_right outside]
      simp only [reduceCtorEq, below, false_and]

/-- Finite doubles share a key when they are one number. -/
theorem key_eq_key_iff {x y : Double} (xFinite : x.isFinite = true) (yFinite : y.isFinite = true) :
    x.key = y.key ↔ x.exactValue = y.exactValue := by
  constructor
  · intro same
    rcases key_eq_integer_or_number x with ⟨value, whole⟩ | pattern
    · rcases (key_eq_integer_iff xFinite).mp whole with xIs | ⟨rfl, rfl⟩ <;>
        rcases (key_eq_integer_iff yFinite).mp (same ▸ whole) with yIs | ⟨rfl, greatest⟩
      · rw [xIs, yIs]
      · exact absurd (greatest ▸ xIs) x.exactValue_ne_maxValue
      · exact absurd yIs y.exactValue_ne_maxValue
      · rfl
    · rcases key_eq_integer_or_number y with ⟨value, whole⟩ | other
      · simp [pattern, whole] at same
      · rw [pattern, other, CellKey.number.injEq] at same
        rw [show x = y from congrArg Double.mk same]
  · intro same
    rcases exactValue_eq_iff.mp same with rfl | ⟨xZero, yZero⟩
    · rfl
    · have zeroKey : ∀ z : Double, z.isFinite = true → z.isZero = true → z.key = .integer 0 :=
        fun z finite zero => (key_eq_integer_iff finite).mpr
          (.inl (by rw [exactValue_of_isZero zero]; rfl))
      rw [zeroKey x xFinite xZero, zeroKey y yFinite yZero]

end Double

namespace Cell

/-- The number that a cell holds: an integer or a finite double. -/
def exactValue? : Cell → Option ℚ
  | integer value => some value.toInt
  | number value => if value.isFinite then some value.exactValue else none
  | _ => none

/-- The greatest 64-bit integer and the double `2 ^ 63`, in either order. -/
def Collide (left right : Cell) : Prop :=
  left = integer Int64.maxValue ∧ right = number Double.beyondInt64 ∨
    left = number Double.beyondInt64 ∧ right = integer Int64.maxValue

/-- Cells with numbers share a key when the numbers are equal, and when they are the greatest
64-bit integer and `2 ^ 63`. -/
theorem key_eq_iff {left right : Cell} {x y : ℚ} (leftValue : left.exactValue? = some x)
    (rightValue : right.exactValue? = some y) :
    left.key = right.key ↔ x = y ∨ Collide left right := by
  cases left with
  | missing | text => simp [exactValue?] at leftValue
  | integer one =>
    obtain rfl := Option.some.inj leftValue
    cases right with
    | missing | text => simp [exactValue?] at rightValue
    | integer other =>
      obtain rfl := Option.some.inj rightValue
      simp [key, Collide, Int64.toInt_inj]
    | number other =>
      obtain ⟨finite, rfl⟩ : other.isFinite = true ∧ other.exactValue = y := by
        simpa [exactValue?] using rightValue
      rw [key, key, eq_comm, Double.key_eq_integer_iff finite]
      simp [Collide, eq_comm, and_comm]
  | number one =>
    obtain ⟨finite, rfl⟩ : one.isFinite = true ∧ one.exactValue = x := by
      simpa [exactValue?] using leftValue
    cases right with
    | missing | text => simp [exactValue?] at rightValue
    | integer other =>
      obtain rfl := Option.some.inj rightValue
      rw [key, key, Double.key_eq_integer_iff finite]
      simp [Collide]
    | number other =>
      obtain ⟨otherFinite, rfl⟩ : other.isFinite = true ∧ other.exactValue = y := by
        simpa [exactValue?] using rightValue
      rw [key, key, Double.key_eq_key_iff finite otherFinite]
      simp [Collide]

end Cell

end Medals
