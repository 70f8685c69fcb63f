/-!
# Binary64 numbers

A `Double` is a 64-bit pattern of the binary64 format. Every operation is computed on the exact
rational value `mantissa * 2 ^ exponent` and rounded once, to the nearest representable number and
to the even one at a tie. Patterns are kept apart: the payload and the sign of a NaN survive, and
two numbers are the same `Double` only when all their bits agree.
-/

namespace Medals

/-- A binary64 number, given by its bits. -/
structure Double where
  bits : UInt64
deriving DecidableEq, Repr, Inhabited, Hashable

namespace Double

/-- The weight of the sign bit, `2 ^ 63`. -/
def signBit : Nat := 0x8000000000000000

/-- The weight of the lowest bit of the exponent field, `2 ^ 52`. Normal significands have this bit
too, though it is not stored. -/
def hiddenBit : Nat := 0x10000000000000

/-- The weight of the highest bit of the fraction, `2 ^ 51`, which is set in a quiet NaN. -/
def quietBit : Nat := 0x8000000000000

/-- The sign bit is set; this includes negative zero and NaNs of negative sign. -/
def isNegative (x : Double) : Bool :=
  decide (signBit ≤ x.bits.toNat)

/-- The bits below the sign, read as a number. -/
def magnitude (x : Double) : Nat :=
  x.bits.toNat % signBit

/-- The biased exponent field. -/
def exponentField (x : Double) : Nat :=
  x.magnitude / hiddenBit

/-- The fraction field. -/
def fraction (x : Double) : Nat :=
  x.magnitude % hiddenBit

/-- The magnitude of an infinity; anything above it is a NaN. -/
def infinityMagnitude : Nat := 0x7ff0000000000000

/-- Neither an infinity nor a NaN. -/
def isFinite (x : Double) : Bool :=
  decide (x.magnitude < infinityMagnitude)

def isNaN (x : Double) : Bool :=
  decide (infinityMagnitude < x.magnitude)

def isInfinite (x : Double) : Bool :=
  decide (x.magnitude = infinityMagnitude)

/-- One of the two zeros. -/
def isZero (x : Double) : Bool :=
  decide (x.magnitude = 0)

/-- The integer significand of a finite number. -/
def mantissa (x : Double) : Nat :=
  if x.exponentField = 0 then x.fraction else hiddenBit + x.fraction

/-- The power of two that scales the significand of a finite number. -/
def exponent (x : Double) : Int :=
  if x.exponentField = 0 then -1074 else (x.exponentField : Int) - 1075

/-- The pattern with a given sign and magnitude. -/
def ofMagnitude (negative : Bool) (magnitude : Nat) : Double :=
  ⟨UInt64.ofNat (if negative then signBit + magnitude else magnitude)⟩

def zero (negative : Bool) : Double := ofMagnitude negative 0

def infinity (negative : Bool) : Double := ofMagnitude negative infinityMagnitude

/-- The quiet NaN without payload. -/
def quietNaN (negative : Bool) : Double := ofMagnitude negative 0x7ff8000000000000

/-- The NaN an undefined sum, product or quotient yields. -/
def undefined : Double := quietNaN true

/-- The same NaN with its quiet bit set. -/
def quieted (x : Double) : Double :=
  if x.magnitude / quietBit % 2 = 1 then x else ⟨x.bits + UInt64.ofNat quietBit⟩

/-- The number of opposite sign. -/
def negate (x : Double) : Double :=
  ofMagnitude (!x.isNegative) x.magnitude

/-- Round a quotient half to even. -/
def roundQuotient (numerator denominator : Nat) : Nat :=
  let quotient := numerator / denominator
  let twice := 2 * (numerator % denominator)
  if twice < denominator then quotient
  else if denominator < twice then quotient + 1
  else if quotient % 2 = 0 then quotient else quotient + 1

/-- The exponent of the grid on which `numerator / denominator` is rounded: the significand has
53 bits, or fewer when the number is subnormal. -/
def gridExponent (numerator denominator : Nat) : Int :=
  let estimate : Int := (numerator.log2 : Int) - denominator.log2 - 53
  let reaches : Bool :=
    if 0 ≤ estimate + 53 then decide (denominator <<< (estimate + 53).toNat ≤ numerator)
    else decide (denominator ≤ numerator <<< (-(estimate + 53)).toNat)
  max (-1074) (if reaches then estimate + 1 else estimate)

/-- The double nearest to `numerator / denominator`, ties to even, with a sign of its own so that
a zero keeps it. The denominator is positive. -/
def ofRatio (negative : Bool) (numerator denominator : Nat) : Double :=
  if numerator = 0 then zero negative
  else
    let grid := gridExponent numerator denominator
    let significand :=
      if 0 ≤ grid then roundQuotient numerator (denominator <<< grid.toNat)
      else roundQuotient (numerator <<< (-grid).toNat) denominator
    let packed := significand + (grid + 1074).toNat * hiddenBit
    if infinityMagnitude ≤ packed then infinity negative else ofMagnitude negative packed

/-- The double nearest to `mantissa * 2 ^ exponent`. -/
def ofScaled (negative : Bool) (mantissa : Nat) (exponent : Int) : Double :=
  if 0 ≤ exponent then ofRatio negative (mantissa <<< exponent.toNat) 1
  else ofRatio negative mantissa (1 <<< (-exponent).toNat)

/-- The double nearest to an integer. -/
def ofInt (value : Int) : Double :=
  ofRatio (decide (value < 0)) value.natAbs 1

/-- The significand with the sign of the number. -/
def signedMantissa (x : Double) : Int :=
  if x.isNegative then -(x.mantissa : Int) else x.mantissa

/-- The exact value of a finite number that is an integer. -/
def toInt? (x : Double) : Option Int :=
  if !x.isFinite then none
  else if 0 ≤ x.exponent then some (x.signedMantissa * Nat.pow 2 x.exponent.toNat)
  else if x.mantissa % Nat.pow 2 (-x.exponent).toNat = 0 then
    some (x.signedMantissa / Nat.pow 2 (-x.exponent).toNat)
  else none

/-- Position in the total order of bit patterns: negative NaNs, negative numbers, negative zero,
zero, positive numbers, positive NaNs. -/
def rank (x : Double) : Int :=
  if x.isNegative then -1 - (x.magnitude : Int) else x.magnitude

/-- The total order of bit patterns. -/
def compareTotal (x y : Double) : Ordering :=
  compare x.rank y.rank

/-- The magnitude with the sign of the number; the two zeros share a place. -/
def signedMagnitude (x : Double) : Int :=
  if x.isNegative then -(x.magnitude : Int) else x.magnitude

/-- Numeric comparison; a NaN is not comparable. -/
def compare? (x y : Double) : Option Ordering :=
  if x.isNaN || y.isNaN then none else some (compare x.signedMagnitude y.signedMagnitude)

/-- Numeric equality: the zeros are equal and a NaN differs from itself. -/
def numericEq (x y : Double) : Bool :=
  x.compare? y == some .eq

/-- The NaN operand a binary operation hands on, the left one first. -/
def nanOperand? (x y : Double) : Option Double :=
  if x.isNaN then some x.quieted else if y.isNaN then some y.quieted else none

/-- The rounded sum. -/
def add (x y : Double) : Double :=
  match nanOperand? x y with
  | some nan => nan
  | none =>
    if x.isInfinite then
      if y.isInfinite && x.isNegative != y.isNegative then undefined else x
    else if y.isInfinite then y
    else
      let grid := min x.exponent y.exponent
      let sum := x.signedMantissa * Nat.pow 2 (x.exponent - grid).toNat +
        y.signedMantissa * Nat.pow 2 (y.exponent - grid).toNat
      if sum = 0 then zero (x.isNegative && y.isNegative)
      else ofScaled (decide (sum < 0)) sum.natAbs grid

/-- The rounded product. -/
def mul (x y : Double) : Double :=
  match nanOperand? x y with
  | some nan => nan
  | none =>
    let negative := x.isNegative != y.isNegative
    if x.isInfinite || y.isInfinite then
      if x.isZero || y.isZero then undefined else infinity negative
    else ofScaled negative (x.mantissa * y.mantissa) (x.exponent + y.exponent)

/-- The rounded quotient. -/
def div (x y : Double) : Double :=
  match nanOperand? x y with
  | some nan => nan
  | none =>
    let negative := x.isNegative != y.isNegative
    if x.isInfinite then if y.isInfinite then undefined else infinity negative
    else if y.isInfinite then zero negative
    else if y.isZero then if x.isZero then undefined else infinity negative
    else
      let scale := x.exponent - y.exponent
      if 0 ≤ scale then ofRatio negative (x.mantissa <<< scale.toNat) y.mantissa
      else ofRatio negative x.mantissa (y.mantissa <<< (-scale).toNat)

instance : Add Double := ⟨add⟩
instance : Mul Double := ⟨mul⟩
instance : Div Double := ⟨div⟩

/-- Strictly above zero. -/
def isPositive (x : Double) : Bool :=
  !x.isNaN && !x.isNegative && !x.isZero

end Double

end Medals
