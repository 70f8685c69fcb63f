import Mathlib.Tactic.IntervalCases
import Mathlib.Tactic.SplitIfs
import Medals.Text.Utf8

/-!
# Texts and their bytes

`Utf8.decode?_encode` says that the bytes of a text decode to it. Bytes that decode at all are read
alike by the lossy reader (`Utf8.decodeLossy_of_decode?`), so that replacement touches ill-formed
bytes only. `Utf8.head_of_mark_prefix` says when the bytes of a text are taken for a byte order
mark, and `Utf8.mark_prefix_of_decodeStrict` that no other bytes decode to its character.
-/

namespace Medals

namespace Utf8

/-- Where the strict reader finds characters the lossy one finds the same. -/
theorem decodeFrom_of_decodeStrict {state : State} {bytes : List UInt8} {chars : List Char}
    (decoded : decodeStrict state bytes = some chars) : decodeFrom state bytes = chars := by
  induction bytes generalizing state chars with
  | nil => cases state <;> simp_all [decodeStrict, decodeFrom]
  | cons byte rest ih =>
    rw [decodeStrict] at decoded
    cases found : step state byte.toNat with
    | character c =>
      rw [found] at decoded
      obtain ⟨others, same, rfl⟩ := Option.map_eq_some_iff.mp decoded
      cases state with
      | idle =>
        rw [decodeFrom, show first byte.toNat = .character c from found]
        simp only [ih same]
      | owing => simp only [decodeFrom, found, ih same]
    | next state' =>
      rw [found] at decoded
      cases state with
      | idle =>
        rw [decodeFrom, show first byte.toNat = .next state' from found]
        simp only [ih decoded]
      | owing => simp only [decodeFrom, found, ih decoded]
    | refused => simp [found] at decoded

theorem decodeLossy_of_decode? {bytes : List UInt8} {text : String}
    (decoded : decode? bytes = some text) : decodeLossy bytes = text := by
  obtain ⟨chars, found, rfl⟩ := Option.map_eq_some_iff.mp decoded
  rw [decodeLossy, decodeFrom_of_decodeStrict found]

theorem isValid_of_decode? {bytes : List UInt8} {text : String}
    (decoded : decode? bytes = some text) : isValid bytes = true := by
  obtain ⟨chars, found, _⟩ := Option.map_eq_some_iff.mp decoded
  rw [isValid, found, Option.isSome_some]

section Characters

/-- A byte given as a number. -/
theorem decodeStrict_ofNat (state : State) {byte : Nat} (small : byte < 256) (rest : List UInt8) :
    decodeStrict state (UInt8.ofNat byte :: rest) =
      match step state byte with
      | .character c => (decodeStrict .idle rest).map (c :: ·)
      | .next state => decodeStrict state rest
      | .refused => none := by
  cases found : step state byte <;>
    simp only [decodeStrict, UInt8.toNat_ofNat_of_lt' small, found]

/-- A byte that continues a character and holds its last bits. -/
theorem step_last {value low high bits : Nat} (above : low ≤ bits + 128)
    (below : bits + 128 ≤ high) :
    step (.owing value 1 low high) (bits + 128) = .character (Char.ofNat (64 * value + bits)) := by
  simp [step, above, below]

/-- A byte that continues a character of which more is owed. -/
theorem step_more {value missing low high bits : Nat} (above : low ≤ bits + 128)
    (below : bits + 128 ≤ high) :
    step (.owing value (missing + 2) low high) (bits + 128) =
      .next (.owing (64 * value + bits) (missing + 1) 0x80 0xbf) := by
  simp [step, above, below]

theorem step_two {bits : Nat} (above : 2 ≤ bits) (below : bits ≤ 31) :
    step .idle (bits + 192) = .next (.owing bits 1 0x80 0xbf) := by
  interval_cases bits <;> rfl

/-- The bounds of the second byte shut out long forms and surrogates. -/
theorem step_three {bits : Nat} (below : bits ≤ 15) :
    step .idle (bits + 224) = .next (.owing bits 2 (if bits = 0 then 0xa0 else 0x80)
      (if bits = 13 then 0x9f else 0xbf)) := by
  interval_cases bits <;> rfl

/-- The bounds of the second byte shut out long forms and what is beyond U+10FFFF. -/
theorem step_four {bits : Nat} (below : bits ≤ 4) :
    step .idle (bits + 240) = .next (.owing bits 3 (if bits = 0 then 0x90 else 0x80)
      (if bits = 4 then 0x8f else 0xbf)) := by
  interval_cases bits <;> rfl

end Characters

/-- The bytes of a character are read as the character. -/
theorem decodeStrict_encodeChar (c : Char) (rest : List UInt8) :
    decodeStrict .idle (String.utf8EncodeChar c ++ rest) =
      (decodeStrict .idle rest).map (c :: ·) := by
  have scalar : c.toNat < 0xd800 ∨ (0xdfff < c.toNat ∧ c.toNat < 0x110000) := c.valid
  have self : Char.ofNat c.toNat = c := Char.ofNat_toNat c
  unfold String.utf8EncodeChar
  simp only [show c.val.toNat = c.toNat from rfl]
  generalize c.toNat = code at *
  split
  · next one =>
    rw [List.singleton_append, decodeStrict_ofNat _ (by omega)]
    simp [step, first, one, self]
  · next more =>
    split
    · next two =>
      rw [List.cons_append, decodeStrict_ofNat _ (by omega), step_two (by omega) (by omega)]
      simp only
      rw [List.singleton_append, decodeStrict_ofNat _ (by omega), step_last (by omega) (by omega)]
      rw [show 64 * (code / 64 % 32) + code % 64 = code by omega, self]
    · next more =>
      split
      · next three =>
        rw [List.cons_append, decodeStrict_ofNat _ (by omega), step_three (by omega)]
        simp only
        rw [List.cons_append, decodeStrict_ofNat _ (by omega),
          step_more (by split <;> omega) (by split <;> omega)]
        simp only
        rw [List.singleton_append, decodeStrict_ofNat _ (by omega), step_last (by omega) (by omega)]
        rw [show 64 * (64 * (code / 4096 % 16) + code / 64 % 64) + code % 64 = code by omega, self]
      · next four =>
        rw [List.cons_append, decodeStrict_ofNat _ (by omega), step_four (by omega)]
        simp only
        rw [List.cons_append, decodeStrict_ofNat _ (by omega),
          step_more (by split <;> omega) (by split <;> omega)]
        simp only
        rw [List.cons_append, decodeStrict_ofNat _ (by omega), step_more (by omega) (by omega)]
        simp only
        rw [List.singleton_append, decodeStrict_ofNat _ (by omega), step_last (by omega) (by omega)]
        rw [show 64 * (64 * (64 * (code / 262144 % 8) + code / 4096 % 64) + code / 64 % 64) +
          code % 64 = code by omega, self]

/-- The bytes of a text are well-formed and decode to it. -/
theorem decode?_encode (text : String) : decode? (encode text) = some text := by
  have chars : ∀ chars : List Char,
      decodeStrict .idle (chars.flatMap String.utf8EncodeChar) = some chars := by
    intro chars
    induction chars with
    | nil => rfl
    | cons c rest ih => rw [List.flatMap_cons, decodeStrict_encodeChar, ih, Option.map_some]
  rw [decode?, encode, chars, Option.map_some, String.ofList_toList]

/-- A line feed is no part of another character. -/
theorem eq_of_lineFeed_mem {c : Char} (member : 10 ∈ String.utf8EncodeChar c) : c = '\n' := by
  have self : Char.ofNat c.toNat = c := Char.ofNat_toNat c
  unfold String.utf8EncodeChar at member
  simp only [show c.val.toNat = c.toNat from rfl] at member
  generalize c.toNat = code at *
  have byte : ∀ {value : Nat}, 10 = UInt8.ofNat value → value < 256 → value = 10 := by
    intro value same small
    have size := congrArg UInt8.toNat same
    rw [UInt8.toNat_ofNat_of_lt' small] at size
    exact size.symm
  split at member
  · rw [← self, byte (List.mem_singleton.mp member) (by omega)]
  -- The bytes of longer forms have their highest bit set.
  split at member
  · simp only [List.mem_cons, List.not_mem_nil, or_false] at member
    rcases member with same | same <;> exact absurd (byte same (by omega)) (by omega)
  split at member
  · simp only [List.mem_cons, List.not_mem_nil, or_false] at member
    rcases member with same | same | same <;> exact absurd (byte same (by omega)) (by omega)
  · simp only [List.mem_cons, List.not_mem_nil, or_false] at member
    rcases member with same | same | same | same <;> exact absurd (byte same (by omega)) (by omega)

/-- The bytes of a text have as many line feeds as the text has line ends. -/
theorem lineFeed_mem_encode {text : String} : 10 ∈ encode text ↔ '\n' ∈ text.toList := by
  constructor
  · intro member
    obtain ⟨c, found, byte⟩ := List.mem_flatMap.mp member
    rwa [← eq_of_lineFeed_mem byte]
  · exact fun member => List.mem_flatMap.mpr ⟨'\n', member, by decide⟩

/-- Only one character begins with the bytes of the byte order mark. -/
theorem eq_of_mark_prefix {c : Char} {rest : List UInt8}
    (begins : mark <+: String.utf8EncodeChar c ++ rest) : c = '\ufeff' := by
  have scalar : c.toNat < 0xd800 ∨ (0xdfff < c.toNat ∧ c.toNat < 0x110000) := c.valid
  have byte : ∀ {code byte : Nat}, code < 256 → byte < 256 →
      UInt8.ofNat byte = UInt8.ofNat code → byte = code := by
    intro code byte small below same
    have values := congrArg UInt8.toNat same
    rwa [UInt8.toNat_ofNat_of_lt' small, UInt8.toNat_ofNat_of_lt' below] at values
  refine Char.toNat_inj.mp ?_
  change c.toNat = 0xfeff
  change [UInt8.ofNat 0xef, UInt8.ofNat 0xbb, UInt8.ofNat 0xbf] <+: _ at begins
  unfold String.utf8EncodeChar at begins
  simp only [show c.val.toNat = c.toNat from rfl] at begins
  generalize c.toNat = code at *
  split at begins
  · next one =>
    have lead := byte (by omega) (by omega) (List.cons_prefix_cons.mp begins).1
    omega
  · split at begins
    · next two =>
      have lead := byte (by omega) (by omega) (List.cons_prefix_cons.mp begins).1
      omega
    · split at begins
      · next three =>
        obtain ⟨lead, begins⟩ := List.cons_prefix_cons.mp begins
        obtain ⟨second, begins⟩ := List.cons_prefix_cons.mp begins
        obtain ⟨third, _⟩ := List.cons_prefix_cons.mp begins
        have lead := byte (by omega) (by omega) lead
        have second := byte (by omega) (by omega) second
        have third := byte (by omega) (by omega) third
        omega
      · next four =>
        have lead := byte (by omega) (by omega) (List.cons_prefix_cons.mp begins).1
        omega

/-- The bytes of a text begin with a byte order mark only if the text does. -/
theorem head_of_mark_prefix {text : String} {rest : List UInt8} (someBytes : encode text ≠ [])
    (begins : mark <+: encode text ++ rest) : text.toList.head? = some '\ufeff' := by
  cases chars : text.toList with
  | nil => simp [encode, chars] at someBytes
  | cons c others =>
    rw [encode, chars, List.flatMap_cons, List.append_assoc] at begins
    rw [List.head?_cons, eq_of_mark_prefix begins]

theorem decodeFrom_mark (bytes : List UInt8) :
    decodeFrom .idle (mark ++ bytes) = '\ufeff' :: decodeFrom .idle bytes := rfl

theorem isValid_mark (bytes : List UInt8) : isValid (mark ++ bytes) = isValid bytes := by
  have found : decodeStrict .idle (mark ++ bytes) =
      (decodeStrict .idle bytes).map ('\ufeff' :: ·) := rfl
  rw [isValid, isValid, found, Option.isSome_map]

section Mark

theorem eq_of_ofNat_eq {code : Nat} (same : Char.ofNat code = '\ufeff') : code = 0xfeff := by
  by_cases valid : code.isValidChar
  · rw [Char.ofNat, dif_pos valid] at same
    exact congrArg Char.toNat same
  · rw [Char.ofNat, dif_neg valid] at same
    contradiction

/-- The last byte of a character. -/
theorem last_of_decodeStrict {value low high : Nat} {bytes : List UInt8} {c : Char}
    {others : List Char}
    (decoded : decodeStrict (.owing value 1 low high) bytes = some (c :: others)) :
    ∃ byte rest, bytes = byte :: rest ∧ low ≤ byte.toNat ∧ byte.toNat ≤ high ∧
      c = Char.ofNat (64 * value + (byte.toNat - 0x80)) := by
  cases bytes with
  | nil => simp [decodeStrict] at decoded
  | cons byte rest =>
    by_cases inside : low ≤ byte.toNat ∧ byte.toNat ≤ high
    · simp only [decodeStrict, step, if_pos inside, if_true] at decoded
      obtain ⟨_, -, same⟩ := Option.map_eq_some_iff.mp decoded
      exact ⟨byte, rest, rfl, inside.1, inside.2, (List.cons.inj same).1.symm⟩
    · simp [decodeStrict, step, inside] at decoded

/-- A byte of a character behind which more are owed. -/
theorem more_of_decodeStrict {value missing low high : Nat} {bytes : List UInt8}
    {chars : List Char}
    (decoded : decodeStrict (.owing value (missing + 2) low high) bytes = some chars) :
    ∃ byte rest, bytes = byte :: rest ∧ low ≤ byte.toNat ∧ byte.toNat ≤ high ∧
      decodeStrict (.owing (64 * value + (byte.toNat - 0x80)) (missing + 1) 0x80 0xbf) rest =
        some chars := by
  cases bytes with
  | nil => simp [decodeStrict] at decoded
  | cons byte rest =>
    by_cases inside : low ≤ byte.toNat ∧ byte.toNat ≤ high
    · have more : ¬ missing + 2 = 1 := by omega
      simp only [decodeStrict, step, if_pos inside, if_neg more] at decoded
      exact ⟨byte, rest, rfl, inside.1, inside.2, decoded⟩
    · simp [decodeStrict, step, inside] at decoded

/-- Only the byte order mark decodes to its character. -/
theorem mark_prefix_of_decodeStrict {bytes : List UInt8} {others : List Char}
    (decoded : decodeStrict .idle bytes = some ('\ufeff' :: others)) : mark <+: bytes := by
  cases bytes with
  | nil => simp [decodeStrict] at decoded
  | cons lead rest =>
    have below : lead.toNat < 256 := lead.toNat_lt
    have three : ∀ {value low high : Nat},
        decodeStrict (.owing value 2 low high) rest = some ('\ufeff' :: others) →
        ∃ second third tail, rest = second :: third :: tail ∧ low ≤ second.toNat ∧
          second.toNat ≤ high ∧ 0x80 ≤ third.toNat ∧ third.toNat ≤ 0xbf ∧
          64 * (64 * value + (second.toNat - 0x80)) + (third.toNat - 0x80) = 0xfeff := by
      intro value low high found
      obtain ⟨second, tail, rfl, low₂, high₂, found⟩ := more_of_decodeStrict found
      obtain ⟨third, tail, rfl, low₃, high₃, last⟩ := last_of_decodeStrict found
      exact ⟨second, third, tail, rfl, low₂, high₂, low₃, high₃, eq_of_ofNat_eq last.symm⟩
    have four : ∀ {value low high : Nat},
        decodeStrict (.owing value 3 low high) rest = some ('\ufeff' :: others) →
        ∃ second third last : UInt8, low ≤ second.toNat ∧ 0x80 ≤ third.toNat ∧
          64 * (64 * (64 * value + (second.toNat - 0x80)) + (third.toNat - 0x80)) +
            (last.toNat - 0x80) = 0xfeff := by
      intro value low high found
      obtain ⟨second, tail, rfl, low₂, -, found⟩ := more_of_decodeStrict found
      obtain ⟨third, tail, rfl, low₃, -, found⟩ := more_of_decodeStrict found
      obtain ⟨last, tail, rfl, -, -, last'⟩ := last_of_decodeStrict found
      exact ⟨second, third, last, low₂, low₃, eq_of_ofNat_eq last'.symm⟩
    simp only [decodeStrict, step, first] at decoded
    split_ifs at decoded with ascii two least surrogates middle large huge top
    · obtain ⟨_, -, same⟩ := Option.map_eq_some_iff.mp decoded
      have code := eq_of_ofNat_eq (List.cons.inj same).1
      omega
    · obtain ⟨second, tail, rfl, -, -, last⟩ := last_of_decodeStrict decoded
      have code := eq_of_ofNat_eq last.symm
      have small := second.toNat_lt
      omega
    · obtain ⟨second, third, _, _, _, _, _, _, code⟩ := three decoded
      omega
    · obtain ⟨second, third, _, _, _, _, _, _, code⟩ := three decoded
      omega
    · obtain ⟨second, third, tail, rfl, _, _, _, _, code⟩ := three decoded
      have leadIs : lead = 0xef := UInt8.toNat_inj.mp (show lead.toNat = 0xef by omega)
      have secondIs : second = 0xbb := UInt8.toNat_inj.mp (show second.toNat = 0xbb by omega)
      have thirdIs : third = 0xbf := UInt8.toNat_inj.mp (show third.toNat = 0xbf by omega)
      rw [leadIs, secondIs, thirdIs]
      exact ⟨tail, rfl⟩
    · obtain ⟨second, third, last, _, _, code⟩ := four decoded
      omega
    · obtain ⟨second, third, last, _, _, code⟩ := four decoded
      omega
    · obtain ⟨second, third, last, _, _, code⟩ := four decoded
      omega

end Mark

end Utf8

end Medals
