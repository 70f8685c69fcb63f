import Medals.Number.Shortest

/-!
# Numbers as text

Three written forms: integers, the plain form of a number (never an exponent, no trailing `.0`)
and the document form (always a point or an exponent, so that integers and other numbers differ).
-/

namespace Medals

/-- Decimal digits with a sign in front of a negative integer. -/
def integerText (value : Int) : String :=
  if value < 0 then "-" ++ value.natAbs.repr else value.natAbs.repr

namespace Decimal

/-- `count` zeros. -/
def zeros (count : Nat) : String :=
  String.ofList (List.replicate count '0')

/-- All digits in place, with a point only where digits follow it. -/
def positional (decimal : Decimal) : String :=
  let digits := decimal.digits.repr
  if 0 ≤ decimal.exponent then digits ++ zeros decimal.exponent.toNat
  else
    let places := (-decimal.exponent).toNat
    if digits.length ≤ places then "0." ++ zeros (places - digits.length) ++ digits
    else
      String.ofList (digits.toList.take (digits.length - places)) ++ "." ++
        String.ofList (digits.toList.drop (digits.length - places))

/-- One digit, a point if more follow, and a signed power of ten. -/
def scientific (decimal : Decimal) : String :=
  let digits := decimal.digits.repr
  let power := decimal.exponent + (digits.length : Int) - 1
  let lead := String.ofList (digits.toList.take 1)
  let rest := String.ofList (digits.toList.drop 1)
  let significand := if rest = "" then lead else lead ++ "." ++ rest
  significand ++ (if power < 0 then "e-" else "e+") ++ power.natAbs.repr

/-- The power of ten of the first digit. -/
def leadingPower (decimal : Decimal) : Int :=
  decimal.exponent + (decimal.digits.repr.length : Int) - 1

end Decimal

namespace Double

/-- A minus sign for patterns of negative sign. -/
def signText (x : Double) : String :=
  if x.isNegative then "-" else ""

/-- The plain form: shortest digits in place, halves rounded away from zero. -/
def plainText (x : Double) : String :=
  if x.isNaN then "NaN"
  else if x.isInfinite then x.signText ++ "inf"
  else x.signText ++ (x.shortest .awayFromZero).positional

/-- The document form of a finite number: positional from `1e-5` up to below `1e16`, with at least
one digit after the point, and scientific elsewhere. Halves are rounded to the even digit. -/
def documentText (x : Double) : String :=
  let decimal := x.shortest .toEven
  if decimal.digits = 0 then x.signText ++ "0.0"
  else if -5 ≤ decimal.leadingPower ∧ decimal.leadingPower < 16 then
    x.signText ++ decimal.positional ++ (if 0 ≤ decimal.exponent then ".0" else "")
  else x.signText ++ decimal.scientific

end Double

end Medals
