import Medals.Json.Raw

/-!
# Reading JSON documents

The reader takes a whole text, blanks around it aside. It goes through the text once, and keeps the
arrays and objects that are still open on a stack, so that nesting is not bounded.
-/

namespace Medals

namespace RawJson

def isSpace (c : Char) : Bool :=
  c == ' ' || c == '\n' || c == '\t' || c == '\r'

def skipSpaces (chars : List Char) : List Char :=
  chars.dropWhile isSpace

/-- A power of ten behind its letter; it is cut to what decides between zero and overflow. -/
def readPower (chars : List Char) : Option (Int × List Char) :=
  let (negative, digits) := Numeral.splitSign chars
  let run := digits.takeWhile Numeral.isDigit
  if run = [] then none
  else
    let value := min (Numeral.digitsValue run) 0x7fffffff
    some (if negative then -(value : Int) else value, digits.dropWhile Numeral.isDigit)

/-- The digits behind the point of a number, if it has one. -/
def readFraction (chars : List Char) : Option (Option (List Char) × List Char) :=
  match chars with
  | '.' :: rest =>
    let digits := rest.takeWhile Numeral.isDigit
    if digits = [] then none else some (some digits, rest.dropWhile Numeral.isDigit)
  | rest => some (none, rest)

/-- A number and what follows it. -/
def readNumber (chars : List Char) : Option (RawJson × List Char) := do
  let (negative, body) := match chars with
    | '-' :: rest => (true, rest)
    | _ => (false, chars)
  let whole := body.takeWhile Numeral.isDigit
  if whole = [] ∨ (whole.head? = some '0' ∧ whole ≠ ['0']) then none
  let (fraction?, rest) ← readFraction (body.dropWhile Numeral.isDigit)
  match rest with
  | c :: behind =>
    if c = 'e' ∨ c = 'E' then
      let (power, rest) ← readPower behind
      return (.number ⟨negative, whole, fraction?, some power⟩, rest)
    else return (.number ⟨negative, whole, fraction?, none⟩, rest)
  | [] => return (.number ⟨negative, whole, fraction?, none⟩, [])

/-- The rest of a text, up to its closing quote. The characters so far are kept last one first. -/
def readText (read : List Char) : List Char → Option (List Char × List Char)
  | [] => none
  | '"' :: rest => some (read.reverse, rest)
  | '\\' :: c :: rest =>
    if (shortEscape? c).isSome || (c == 'u' && (codeUnit? rest).isSome) then
      readText (c :: '\\' :: read) rest
    else none
  | c :: rest => if c = '\\' ∨ c.toNat < 32 then none else readText (c :: read) rest

/-- The rest of `chars` after a word. -/
def afterWord? (word chars : List Char) : Option (List Char) :=
  if word.isPrefixOf chars then some (chars.drop word.length) else none

/-- A document without parts, and what follows it. -/
def readScalar (chars : List Char) : Option (RawJson × List Char) :=
  match chars with
  | '"' :: rest => (readText [] rest).map fun (chars, rest) => (.text chars, rest)
  | 'n' :: rest => (afterWord? ['u', 'l', 'l'] rest).map fun rest => (.null, rest)
  | 't' :: rest => (afterWord? ['r', 'u', 'e'] rest).map fun rest => (.boolean true, rest)
  | 'f' :: rest => (afterWord? ['a', 'l', 's', 'e'] rest).map fun rest => (.boolean false, rest)
  | chars => readNumber chars

/-- The name of a member with its colon, and what follows it. -/
def readName (chars : List Char) : Option (List Char × List Char) :=
  match skipSpaces chars with
  | '"' :: rest =>
    match readText [] rest with
    | some (name, rest) =>
      match skipSpaces rest with
      | ':' :: rest => some (name, rest)
      | _ => none
    | none => none
  | _ => none

/-- What is open around a value, with what it holds already, last part first. -/
inductive Frame where
  | array (items : List RawJson)
  | object (members : List (List Char × RawJson)) (name : List Char)
deriving Repr

/-- The whole document and what follows it, given what is open and, if a value has just been read,
that. Every other call passes a character, so that twice the length of the text is fuel enough. -/
def readFrom (frames : List Frame) (read? : Option RawJson) (chars : List Char) :
    Nat → Option (RawJson × List Char)
  | 0 => none
  | fuel + 1 =>
    match read?, frames, skipSpaces chars with
    | none, _, '[' :: rest =>
      match skipSpaces rest with
      | ']' :: rest => readFrom frames (some (.array [])) rest fuel
      | rest => readFrom (.array [] :: frames) none rest fuel
    | none, _, '\x7b' :: rest =>
      match skipSpaces rest with
      | '\x7d' :: rest => readFrom frames (some (.object [])) rest fuel
      | rest =>
        match readName rest with
        | some (name, rest) => readFrom (.object [] name :: frames) none rest fuel
        | none => none
    | none, _, chars =>
      match readScalar chars with
      | some (value, rest) => readFrom frames (some value) rest fuel
      | none => none
    | some value, [], rest => some (value, rest)
    | some value, .array items :: frames, ',' :: rest =>
      readFrom (.array (value :: items) :: frames) none rest fuel
    | some value, .array items :: frames, ']' :: rest =>
      readFrom frames (some (.array (value :: items).reverse)) rest fuel
    | some value, .object members name :: frames, ',' :: rest =>
      match readName rest with
      | some (next, rest) =>
        readFrom (.object ((name, value) :: members) next :: frames) none rest fuel
      | none => none
    | some value, .object members name :: frames, '\x7d' :: rest =>
      readFrom frames (some (.object ((name, value) :: members).reverse)) rest fuel
    | some _, _ :: _, _ => none

/-- The document that a text holds. -/
def parse? (text : String) : Option RawJson :=
  let chars := text.toList
  match readFrom [] none chars (2 * chars.length + 2) with
  | some (document, []) => some document
  | _ => none

end RawJson

end Medals
