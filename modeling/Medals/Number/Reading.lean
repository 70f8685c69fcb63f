import Medals.Number.Double

/-!
# Reading numbers from text

Integers are an optional sign and decimal digits. Other numbers also take a point, a power of ten
and the words for infinity and NaN. Readers take the whole text or refuse it; they skip nothing.
-/

namespace Medals

/-- The greatest count a table, a page or a counter can hold, `2 ^ 64 - 1`. -/
def maxCount : Nat := 0xffffffffffffffff

namespace Numeral

def isDigit (c : Char) : Bool :=
  decide ('0' ≤ c) && decide (c ≤ '9')

/-- The value of a run of digits; no digits count as zero. -/
def digitsValue (chars : List Char) : Nat :=
  chars.foldl (fun value c => 10 * value + (c.toNat - '0'.toNat)) 0

/-- A nonempty text of digits only. -/
def natural? (chars : List Char) : Option Nat :=
  if chars ≠ [] ∧ chars.all isDigit then some (digitsValue chars) else none

/-- One leading sign, as whether it is a minus, and what follows it. -/
def splitSign : List Char → Bool × List Char
  | '-' :: rest => (true, rest)
  | '+' :: rest => (false, rest)
  | chars => (false, chars)

/-- The value of a signed run of digits. -/
def integer? (chars : List Char) : Option Int :=
  let (negative, digits) := splitSign chars
  (natural? digits).map fun value => if negative then -(value : Int) else value

end Numeral

/-- An integer text whose value fits 64 bits. -/
def readInt64? (text : String) : Option Int64 :=
  match Numeral.integer? text.toList with
  | some value =>
    if Int64.minValue.toInt ≤ value ∧ value ≤ Int64.maxValue.toInt then some (Int64.ofInt value)
    else none
  | none => none

/-- A count: digits with an optional plus sign. -/
def readCount? (text : String) : Option Nat :=
  let digits := match text.toList with
    | '+' :: rest => rest
    | chars => chars
  match Numeral.natural? digits with
  | some value => if value ≤ maxCount then some value else none
  | none => none

/-- The number `significand * 10 ^ exponent` with a sign. -/
structure Numeral where
  negative : Bool
  significand : Nat
  exponent : Int
deriving DecidableEq, Repr

namespace Numeral

/-- The value of the digits of a power of ten. Digits behind a value beyond 16 bits are passed
over. -/
def powerValue (digits : List Char) : Nat :=
  digits.foldl (fun value c =>
    if value < 0x10000 then 10 * value + (c.toNat - '0'.toNat) else value) 0

/-- The power of ten after an `e`: an optional sign and at least one digit. -/
def power? (chars : List Char) : Option Int :=
  match chars with
  | [] => some 0
  | c :: rest =>
    let (negative, digits) := splitSign rest
    if (c = 'e' ∨ c = 'E') ∧ digits ≠ [] ∧ digits.all isDigit then
      some (if negative then -(powerValue digits : Int) else powerValue digits)
    else none

/-- Digits with an optional point, at least one digit in all, and an optional power of ten. -/
def unsigned? (negative : Bool) (chars : List Char) : Option Numeral :=
  let whole := chars.takeWhile isDigit
  let afterWhole := chars.dropWhile isDigit
  let (fraction, afterFraction) := match afterWhole with
    | '.' :: rest => (rest.takeWhile isDigit, rest.dropWhile isDigit)
    | rest => ([], rest)
  if whole = [] ∧ fraction = [] then none
  else
    (power? afterFraction).map fun power =>
      ⟨negative, digitsValue (whole ++ fraction), power - fraction.length⟩

/-- The nearest double. Numbers far outside the range of doubles are settled without being computed:
with `bits` as below, the significand is at least `10 ^ (bits / 4)` and less than
`10 ^ (bits / 3 + 1)`. -/
def toDouble (numeral : Numeral) : Double :=
  let bits := numeral.significand.log2
  if numeral.significand = 0 then Double.zero numeral.negative
  else if 400 < numeral.exponent + (bits / 4 : Nat) then Double.infinity numeral.negative
  else if numeral.exponent + (bits / 3 + 1 : Nat) < -400 then Double.zero numeral.negative
  else if 0 ≤ numeral.exponent then
    Double.ofRatio numeral.negative (numeral.significand * Nat.pow 10 numeral.exponent.toNat) 1
  else
    Double.ofRatio numeral.negative numeral.significand (Nat.pow 10 (-numeral.exponent).toNat)

/-- The words for numbers without digits, in any case of letters. -/
def word? (negative : Bool) (chars : List Char) : Option Double :=
  let lowered := String.ofList (chars.map Char.toLower)
  if lowered = "inf" ∨ lowered = "infinity" then some (Double.infinity negative)
  else if lowered = "nan" then some (Double.quietNaN negative)
  else none

end Numeral

/-- A number text of any form, rounded to the nearest double. -/
def readDouble? (text : String) : Option Double :=
  let (negative, body) := Numeral.splitSign text.toList
  match Numeral.unsigned? negative body with
  | some numeral => some numeral.toDouble
  | none => Numeral.word? negative body

end Medals
