/-!
# UTF-8

A machine that reads bytes one at a time. `decodeLossy` replaces every ill-formed sequence by one
U+FFFD, where such a sequence is as long as it could still have become a character;
`validBytes` tells where the first one begins.
-/

namespace Medals

namespace Utf8

/-- Where the machine stands between bytes. -/
inductive State where
  /-- Between characters. -/
  | idle
  /-- Inside a character: its bits so far, how many bytes it still owes, and the bounds of the
  next one. -/
  | owing (value missing low high : Nat)
deriving DecidableEq, Repr

/-- What one byte does. -/
inductive Step where
  /-- It completes a character. -/
  | character (c : Char)
  /-- It begins or continues a character. -/
  | next (state : State)
  /-- It cannot stand here. -/
  | refused
deriving DecidableEq, Repr

/-- The first byte of a character. -/
def first (byte : Nat) : Step :=
  if byte ≤ 0x7f then .character (Char.ofNat byte)
  else if 0xc2 ≤ byte ∧ byte ≤ 0xdf then .next (.owing (byte - 0xc0) 1 0x80 0xbf)
  else if byte = 0xe0 then .next (.owing 0 2 0xa0 0xbf)
  else if byte = 0xed then .next (.owing 0xd 2 0x80 0x9f)
  else if 0xe1 ≤ byte ∧ byte ≤ 0xef then .next (.owing (byte - 0xe0) 2 0x80 0xbf)
  else if byte = 0xf0 then .next (.owing 0 3 0x90 0xbf)
  else if 0xf1 ≤ byte ∧ byte ≤ 0xf3 then .next (.owing (byte - 0xf0) 3 0x80 0xbf)
  else if byte = 0xf4 then .next (.owing 4 3 0x80 0x8f)
  else .refused

/-- One byte in any state. -/
def step : State → Nat → Step
  | .idle, byte => first byte
  | .owing value missing low high, byte =>
    if low ≤ byte ∧ byte ≤ high then
      let value := 64 * value + (byte - 0x80)
      if missing = 1 then .character (Char.ofNat value)
      else .next (.owing value (missing - 1) 0x80 0xbf)
    else .refused

def replacement : Char := '\ufffd'

/-- Decode what follows in some state. A refused byte ends an ill-formed sequence and is read again
between characters, unless it was refused there. -/
def decodeFrom : State → List UInt8 → List Char
  | .idle, [] => []
  | .owing _ _ _ _, [] => [replacement]
  | .idle, byte :: rest =>
    match first byte.toNat with
    | .character c => c :: decodeFrom .idle rest
    | .next state => decodeFrom state rest
    | .refused => replacement :: decodeFrom .idle rest
  | state@(.owing _ _ _ _), byte :: rest =>
    match step state byte.toNat with
    | .character c => c :: decodeFrom .idle rest
    | .next state => decodeFrom state rest
    | .refused =>
      match first byte.toNat with
      | .character c => replacement :: c :: decodeFrom .idle rest
      | .next state => replacement :: decodeFrom state rest
      | .refused => replacement :: replacement :: decodeFrom .idle rest

/-- Decode bytes, ill-formed sequences replaced. -/
def decodeLossy (bytes : List UInt8) : String :=
  String.ofList (decodeFrom .idle bytes)

/-- Decode well-formed bytes; `none` if they are not. -/
def decodeStrict : State → List UInt8 → Option (List Char)
  | .idle, [] => some []
  | .owing _ _ _ _, [] => none
  | state, byte :: rest =>
    match step state byte.toNat with
    | .character c => (decodeStrict .idle rest).map (c :: ·)
    | .next state => decodeStrict state rest
    | .refused => none

/-- The text that the bytes encode. -/
def decode? (bytes : List UInt8) : Option String :=
  (decodeStrict .idle bytes).map String.ofList

/-- The bytes are well-formed. -/
def isValid (bytes : List UInt8) : Bool :=
  (decodeStrict .idle bytes).isSome

/-- How many bytes make up the characters before the first ill-formed sequence; `complete` counts
those of finished characters, `pending` those since. -/
def validBytesFrom : State → (complete pending : Nat) → List UInt8 → Nat
  | _, complete, _, [] => complete
  | state, complete, pending, byte :: rest =>
    match step state byte.toNat with
    | .character _ => validBytesFrom .idle (complete + pending + 1) 0 rest
    | .next state => validBytesFrom state complete (pending + 1) rest
    | .refused => complete

/-- The length of the longest well-formed beginning. -/
def validBytes (bytes : List UInt8) : Nat :=
  validBytesFrom .idle 0 0 bytes

/-- The bytes of a text. -/
def encode (text : String) : List UInt8 :=
  text.toList.flatMap String.utf8EncodeChar

/-- The byte order mark. -/
def mark : List UInt8 := [0xef, 0xbb, 0xbf]

end Utf8

end Medals
