import Medals.Cell.Parse

/-!
# Plain scalars

What a scalar without quotes stands for: nothing, a truth value, a number or a text. Readers use it
to take values from a document, and the writer to put quotes where a text would be taken for
something else.
-/

namespace Medals

namespace Yaml

/-- The words for nothing. -/
def isNullWord (text : String) : Bool :=
  ["~", "null", "Null", "NULL"].contains text

/-- A truth value. -/
def boolean? (text : String) : Option Bool :=
  if ["true", "True", "TRUE"].contains text then some true
  else if ["false", "False", "FALSE"].contains text then some false
  else none

/-- The value of a digit in bases up to sixteen. -/
def digitValue (c : Char) : Nat :=
  if Numeral.isDigit c then c.toNat - '0'.toNat
  else if 'a' ≤ c ∧ c ≤ 'f' then c.toNat - 'a'.toNat + 10
  else if 'A' ≤ c ∧ c ≤ 'F' then c.toNat - 'A'.toNat + 10
  else 16

/-- A nonempty run of digits of a base. -/
def naturalInBase? (base : Nat) (digits : List Char) : Option Nat :=
  if digits ≠ [] ∧ digits.all fun c => digitValue c < base then
    some (digits.foldl (fun value c => base * value + digitValue c) 0)
  else none

/-- Digits that begin with a needless zero; they are no number. -/
def isZeroPadded (digits : List Char) : Bool :=
  match digits with
  | '0' :: rest => !rest.isEmpty && rest.all Numeral.isDigit
  | _ => false

/-- A natural number without sign: decimal, or in the base that its first two characters name. -/
def natural? (chars : List Char) : Option Nat :=
  match chars with
  | '0' :: 'x' :: digits => naturalInBase? 16 digits
  | '0' :: 'o' :: digits => naturalInBase? 8 digits
  | '0' :: 'b' :: digits => naturalInBase? 2 digits
  | digits => if isZeroPadded digits then none else naturalInBase? 10 digits

/-- A count: a natural number with an optional plus sign. -/
def count? (text : String) : Option Nat :=
  let digits := match text.toList with
    | '+' :: rest => rest
    | chars => chars
  (natural? digits).filter fun value => decide (value ≤ maxCount)

/-- An integer of up to 128 bits. -/
def isInteger (text : String) : Bool :=
  match text.toList with
  | '-' :: rest => (natural? rest).any fun value => decide (value ≤ Nat.pow 2 127)
  | '+' :: rest => (natural? rest).any fun value => decide (value < Nat.pow 2 128)
  | chars => (natural? chars).any fun value => decide (value < Nat.pow 2 128)

/-- A finite number, or one of the words for the others. -/
def isNumber (text : String) : Bool :=
  match text.toList with
  | '+' :: '+' :: _ => false
  | '+' :: '-' :: _ => false
  | chars =>
    (readFinite? text).isSome ||
      [".inf", ".Inf", ".INF"].contains (String.ofList (Numeral.splitSign chars).2) ||
      [".nan", ".NaN", ".NAN"].contains text

/-- Written plain, the text would be taken for something else, or would look like a number. -/
def isAmbiguous (text : String) : Bool :=
  text == "" || isNullWord text || (boolean? text).isSome || isInteger text ||
    isZeroPadded (Numeral.splitSign text.toList).2 || isNumber text

end Yaml

end Medals
