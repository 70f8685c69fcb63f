import Medals.Json.Tree
import Medals.Number.Reading

/-!
# JSON documents as they are written

Numbers and texts are kept by their characters. Not all of them have a value: a number may be out of
range, and a text may hold half of a pair of code units. An integer that fits 64 bits, signed or
unsigned, stays an integer. Any other number is computed from the first digits that fit 64 bits by
one division or multiplication with a power of ten, which is not always the nearest double.
-/

namespace Medals

/-- A number as it is written. -/
structure RawNumber where
  negative : Bool
  whole : List Char
  /-- The digits behind the point, if there is one. -/
  fraction? : Option (List Char)
  /-- The power of ten, if there is one. -/
  power? : Option Int
deriving DecidableEq, Repr, Inhabited

/-- A document as it is written. Texts keep their escapes. -/
inductive RawJson where
  | null
  | boolean (value : Bool)
  | number (value : RawNumber)
  | text (chars : List Char)
  | array (items : List RawJson)
  | object (members : List (List Char × RawJson))
deriving Repr, Inhabited

namespace RawNumber

/-- The digits of a significand that fit 64 bits, and how many more follow them. -/
def takeSignificand (significand : Nat) : List Char → Nat × Nat
  | [] => (significand, 0)
  | c :: rest =>
    let longer := 10 * significand + (c.toNat - '0'.toNat)
    if longer ≤ maxCount then takeSignificand longer rest else (significand, rest.length + 1)

/-- `significand * 10 ^ exponent`, computed in doubles with powers of ten up to `10 ^ 308`; `none`
when it leaves their range. -/
def scaleByPowers (significand : Double) (exponent : Int) : Nat → Option Double
  | 0 => none
  | fuel + 1 =>
    if exponent.natAbs ≤ 308 then
      let power := Double.ofRatio false (Nat.pow 10 exponent.natAbs) 1
      if 0 ≤ exponent then
        let product := significand * power
        if product.isInfinite then none else some product
      else some (significand / power)
    else if significand.isZero then some significand
    else if 0 ≤ exponent then none
    else
      scaleByPowers (significand / Double.ofRatio false (Nat.pow 10 308) 1) (exponent + 308) fuel

/-- The value of a number. -/
def value? (number : RawNumber) : Option Json :=
  let whole := Numeral.digitsValue number.whole
  if number.fraction? = none ∧ number.power? = none ∧ whole ≤ maxCount then
    if !number.negative then some (.integer whole)
    else if whole = 0 ∨ -(whole : Int) < Int64.minValue.toInt then
      some (.number (Double.ofRatio true whole 1))
    else some (.integer (-(whole : Int)))
  else
    let fraction := number.fraction?.getD []
    let (kept, overflow) := takeSignificand 0 number.whole
    let (significand, dropped) := takeSignificand kept fraction
    let exponent : Int := number.power?.getD 0 + overflow - (fraction.length - dropped : Nat)
    (scaleByPowers (Double.ofRatio false significand 1) exponent 8).map fun magnitude =>
      .number (if number.negative then magnitude.negate else magnitude)

end RawNumber

namespace RawJson

/-- The value of a hexadecimal digit. -/
def hexDigit? (c : Char) : Option Nat :=
  if '0' ≤ c ∧ c ≤ '9' then some (c.toNat - '0'.toNat)
  else if 'a' ≤ c ∧ c ≤ 'f' then some (c.toNat - 'a'.toNat + 10)
  else if 'A' ≤ c ∧ c ≤ 'F' then some (c.toNat - 'A'.toNat + 10)
  else none

/-- The code unit of four hexadecimal digits, with what follows them. -/
def codeUnit? (chars : List Char) : Option (Nat × List Char) :=
  match (chars.take 4).mapM hexDigit? with
  | some [a, b, c, d] => some (((a * 16 + b) * 16 + c) * 16 + d, chars.drop 4)
  | _ => none

/-- The character after `\u`; two halves of a pair count as one character and neither may stand
alone. -/
def codePoint? (chars : List Char) : Option (Char × List Char) :=
  match codeUnit? chars with
  | none => none
  | some (unit, rest) =>
    if 0xdc00 ≤ unit ∧ unit < 0xe000 then none
    else if 0xd800 ≤ unit ∧ unit < 0xdc00 then
      match rest with
      | '\\' :: 'u' :: rest =>
        match codeUnit? rest with
        | some (second, rest) =>
          if 0xdc00 ≤ second ∧ second < 0xe000 then
            some (Char.ofNat (0x10000 + (unit - 0xd800) * 0x400 + (second - 0xdc00)), rest)
          else none
        | none => none
      | _ => none
    else some (Char.ofNat unit, rest)

/-- The character that a letter stands for after a backslash. -/
def shortEscape? (c : Char) : Option Char :=
  if c = '"' ∨ c = '\\' ∨ c = '/' then some c
  else if c = 'b' then some '\x08'
  else if c = 'f' then some '\x0c'
  else if c = 'n' then some '\n'
  else if c = 'r' then some '\r'
  else if c = 't' then some '\t'
  else none

/-- The text that is written with escapes. The characters so far are kept last one first, and the
fuel is the length of what is left. -/
def textFrom (read chars : List Char) : Nat → Option String
  | 0 => none
  | fuel + 1 =>
    match chars with
    | [] => some (String.ofList read.reverse)
    | '\\' :: 'u' :: rest =>
      match codePoint? rest with
      | some (c, rest) => textFrom (c :: read) rest fuel
      | none => none
    | '\\' :: c :: rest =>
      match shortEscape? c with
      | some escaped => textFrom (escaped :: read) rest fuel
      | none => none
    | c :: rest => textFrom (c :: read) rest fuel

/-- The text that characters between quotes stand for. -/
def textOf? (chars : List Char) : Option String :=
  textFrom [] chars (chars.length + 1)

/-- The value of a document without parts. -/
def scalar? : RawJson → Option Json
  | null => some .null
  | boolean value => some (.boolean value)
  | number value => value.value?
  | text chars => (textOf? chars).map .text
  | array _ => none
  | object _ => none

end RawJson

end Medals
