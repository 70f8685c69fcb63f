import Medals.Number.Double

/-!
# The shortest decimal that reads back

`Double.shortest` gives the decimal with the fewest digits among those that round to a finite,
nonzero number, and of these the nearest one. The numbers that round to `x` form an interval
around `x`, closed when the significand is even; grids of ever finer spacing are tried until one
of the two grid points around `x` lies inside.
-/

namespace Medals

/-- The number `digits * 10 ^ exponent`. -/
structure Decimal where
  digits : Nat
  exponent : Int
deriving DecidableEq, Repr

namespace Decimal

/-- How to choose between two equally near candidates. -/
inductive Tie where
  /-- The candidate of greater magnitude. -/
  | awayFromZero
  /-- The candidate whose last digit is even. -/
  | toEven
deriving DecidableEq, Repr

/-- Drop trailing zeros of the digits, at most `fuel` of them. -/
def stripZeros (digits : Nat) (exponent : Int) : Nat → Decimal
  | 0 => ⟨digits, exponent⟩
  | fuel + 1 =>
    if digits % 10 = 0 then stripZeros (digits / 10) (exponent + 1) fuel else ⟨digits, exponent⟩

end Decimal

/-- A positive rational number with the interval of numbers that round to it; the three are
numerators over one denominator. -/
structure RoundingInterval where
  low : Nat
  middle : Nat
  high : Nat
  denominator : Nat
  closed : Bool
deriving Repr

namespace RoundingInterval

/-- The numbers that round to a finite, nonzero double, signs left out. Below a power of two the
next double is only half as far as above it. -/
def ofDouble (x : Double) : RoundingInterval :=
  let narrowBelow := x.fraction = 0 ∧ 1 < x.exponentField
  let scale (quarters : Nat) : Nat :=
    if 2 ≤ x.exponent then quarters * Nat.pow 2 (x.exponent - 2).toNat else quarters
  { low := scale (if narrowBelow then 4 * x.mantissa - 1 else 4 * x.mantissa - 2)
    middle := scale (4 * x.mantissa)
    high := scale (4 * x.mantissa + 2)
    denominator := if 2 ≤ x.exponent then 1 else Nat.pow 2 (2 - x.exponent).toNat
    closed := decide (x.mantissa % 2 = 0) }

/-- The interval holds `numerator / scale` over the interval's denominator. -/
def holds (interval : RoundingInterval) (numerator scale : Nat) : Bool :=
  if interval.closed then
    decide (interval.low * scale ≤ numerator) && decide (numerator ≤ interval.high * scale)
  else
    decide (interval.low * scale < numerator) && decide (numerator < interval.high * scale)

/-- The nearer of the two grid points around the number, among those inside the interval, as a
multiple of `10 ^ exponent`. -/
def gridPoint? (tie : Decimal.Tie) (interval : RoundingInterval) (exponent : Int) : Option Nat :=
  let step := if 0 ≤ exponent then interval.denominator * Nat.pow 10 exponent.toNat
    else interval.denominator
  let scale := if 0 ≤ exponent then 1 else Nat.pow 10 (-exponent).toNat
  let number := interval.middle * scale
  let below := number / step
  let above := below + 1
  let belowInside := interval.holds (below * step) scale && decide (0 < below)
  let aboveInside := interval.holds (above * step) scale
  if belowInside && aboveInside then
    let twice := 2 * (number - below * step)
    if twice < step then some below
    else if step < twice then some above
    else match tie with
      | .awayFromZero => some above
      | .toEven => some (if below % 2 = 0 then below else above)
  else if belowInside then some below
  else if aboveInside then some above
  else none

/-- The first hit on grids of spacing `10 ^ exponent`, `10 ^ (exponent - 1)`, and so on. -/
def search (tie : Decimal.Tie) (interval : RoundingInterval) (exponent : Int) : Nat → Decimal
  | 0 => ⟨0, 0⟩
  | fuel + 1 =>
    match interval.gridPoint? tie exponent with
    | some digits => Decimal.stripZeros digits exponent 20
    | none => search tie interval (exponent - 1) fuel

/-- A power of ten not below the number: the exponent of the first grid to try. -/
def topExponent (interval : RoundingInterval) : Int :=
  if interval.denominator ≤ interval.middle then
    ((interval.middle / interval.denominator).repr.length : Int)
  else
    1 - ((interval.denominator / interval.middle).repr.length : Int)

end RoundingInterval

/-- The shortest decimal of a finite number, without its sign. -/
def Double.shortest (tie : Decimal.Tie) (x : Double) : Decimal :=
  if x.mantissa = 0 then ⟨0, 0⟩
  else
    let interval := RoundingInterval.ofDouble x
    interval.search tie interval.topExponent 24

end Medals
