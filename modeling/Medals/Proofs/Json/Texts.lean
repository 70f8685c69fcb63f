import Medals.Json.Reader
import Mathlib.Tactic.IntervalCases

/-!
# Texts in documents

Every text is read back from its literal: the reader takes the literal up to its closing quote
(`RawJson.readText_escaped`), and the escapes stand for the characters of the text
(`RawJson.textOf?_escaped`). A line end is always written as an escape
(`Json.newline_notMem_escaped`).
-/

namespace Medals

namespace Json

/-- The characters of a text as they stand between quotes. -/
def escaped (text : List Char) : List Char :=
  text.flatMap fun c => (escapedChar c).toList

theorem escaped_cons (c : Char) (text : List Char) :
    escaped (c :: text) = (escapedChar c).toList ++ escaped text :=
  rfl

theorem toList_textLiteral (text : String) :
    (textLiteral text).toList = '"' :: (escaped text.toList ++ ['"']) := by
  have join : ∀ chars : List Char,
      (String.join (chars.map escapedChar)).toList = escaped chars := by
    intro chars
    simp [escaped, String.toList_join, List.flatMap_map]
  simp [textLiteral, join]

/-- How a character is written: as itself, as a letter after a backslash, or by its code. -/
inductive Spelling (c : Char) : List Char → Prop where
  | plain (printable : 32 ≤ c.toNat) (quote : c ≠ '"') (backslash : c ≠ '\\') : Spelling c [c]
  | short (letter : Char) (meaning : RawJson.shortEscape? letter = some c) :
    Spelling c ['\\', letter]
  | code (high low : Char) (small : c.toNat < 32)
    (first : RawJson.hexDigit? high = some (c.toNat / 16))
    (second : RawJson.hexDigit? low = some (c.toNat % 16)) :
    Spelling c ['\\', 'u', '0', '0', high, low]

theorem hexDigit?_digitChar {digit : Nat} (small : digit < 16) :
    RawJson.hexDigit? digit.digitChar = some digit := by
  interval_cases digit <;> rfl

theorem spelling_escapedChar (c : Char) : Spelling c (escapedChar c).toList := by
  have known : ∀ code, c.toNat = code → c = Char.ofNat code := by
    rintro code rfl
    exact c.ofNat_toNat.symm
  unfold escapedChar
  split
  · next quote =>
    subst quote
    exact .short '"' rfl
  split
  · next backslash =>
    subst backslash
    exact .short '\\' rfl
  split
  · next backspace => exact .short 'b' (by rw [known 8 backspace]; rfl)
  split
  · next feed => exact .short 'f' (by rw [known 12 feed]; rfl)
  split
  · next line =>
    subst line
    exact .short 'n' rfl
  split
  · next carriage =>
    subst carriage
    exact .short 'r' rfl
  split
  · next tabulator =>
    subst tabulator
    exact .short 't' rfl
  split
  · next low =>
    have first : c.toNat / 16 = 0 := Nat.div_eq_of_lt low
    have digit : c.toNat % 16 = c.toNat := Nat.mod_eq_of_lt low
    have spelled : Spelling c ['\\', 'u', '0', '0', '0', c.toNat.digitChar] :=
      .code '0' _ (by omega) (by rw [first]; rfl) (by rw [digit]; exact hexDigit?_digitChar low)
    simpa [Nat.toDigits_of_lt_base low] using spelled
  split
  · next middle control =>
    have first : c.toNat / 16 = 1 := by omega
    have spelled : Spelling c ['\\', 'u', '0', '0', '1', (c.toNat % 16).digitChar] :=
      .code '1' _ control (by rw [first]; rfl) (hexDigit?_digitChar (Nat.mod_lt _ (by decide)))
    simpa [Nat.toDigits_of_base_le (b := 16) (by decide) (Nat.le_of_not_lt middle), first,
      Nat.toDigits_of_lt_base, show Nat.digitChar 1 = '1' from rfl] using spelled
  · next quote backslash _ _ _ _ _ _ printable =>
    rw [Char.toString_eq_singleton, String.toList_singleton]
    exact .plain (Nat.le_of_not_lt printable) quote backslash

/-- No line end is written as it is. -/
theorem Spelling.newline_notMem {c : Char} {written : List Char} (spelling : Spelling c written) :
    '\n' ∉ written := by
  cases spelling with
  | plain printable quote backslash =>
    rw [List.mem_singleton]
    rintro rfl
    exact absurd printable (by decide)
  | short letter meaning =>
    intro member
    obtain rfl : '\n' = letter := by simpa using member
    exact nomatch meaning
  | code high low small first second =>
    intro member
    obtain rfl | rfl : '\n' = high ∨ '\n' = low := by simpa using member
    · exact nomatch first
    · exact nomatch second

theorem newline_notMem_escaped (text : List Char) : '\n' ∉ escaped text := by
  intro member
  obtain ⟨c, -, written⟩ := List.mem_flatMap.mp member
  exact (spelling_escapedChar c).newline_notMem written

theorem Spelling.ne_nil {c : Char} {written : List Char} (spelling : Spelling c written) :
    written ≠ [] := by
  cases spelling <;> exact List.cons_ne_nil _ _

theorem length_le_length_escaped (text : List Char) : text.length ≤ (escaped text).length := by
  induction text with
  | nil => exact Nat.zero_le _
  | cons c text ih =>
    have some := List.length_pos_iff.mpr (spelling_escapedChar c).ne_nil
    rw [escaped_cons, List.length_append, List.length_cons]
    omega

end Json

namespace RawJson

open Json

/-- A hexadecimal digit needs no escape. -/
theorem plain_of_hexDigit? {digit : Char} {value : Nat} (meaning : hexDigit? digit = some value) :
    32 ≤ digit.toNat ∧ digit ≠ '"' ∧ digit ≠ '\\' := by
  refine ⟨?_, ?_, ?_⟩
  · unfold hexDigit? at meaning
    have low : ∀ {first : Char}, 32 ≤ first.toNat → first ≤ digit → 32 ≤ digit.toNat := by
      intro first bound above
      exact bound.trans (UInt32.le_iff_toNat_le.mp above)
    split at meaning
    · next range => exact low (by decide) range.1
    split at meaning
    · next range => exact low (by decide) range.1
    split at meaning
    · next range => exact low (by decide) range.1
    · exact nomatch meaning
  · rintro rfl
    exact nomatch meaning
  · rintro rfl
    exact nomatch meaning

theorem readText_plain {c : Char} (plain : 32 ≤ c.toNat ∧ c ≠ '"' ∧ c ≠ '\\')
    (read rest : List Char) : readText read (c :: rest) = readText (c :: read) rest := by
  obtain ⟨printable, quote, backslash⟩ := plain
  have refused : ¬ (c = '\\' ∨ c.toNat < 32) := by
    rintro (escape | control)
    · exact backslash escape
    · omega
  rw [readText, if_neg refused]
  · exact quote
  · exact fun _ _ escape _ => backslash escape

/-- The code unit of a character with two hexadecimal digits. -/
theorem codeUnit?_of_hexDigit? {high low : Char} {first second : Nat}
    (highMeaning : hexDigit? high = some first) (lowMeaning : hexDigit? low = some second)
    (rest : List Char) :
    codeUnit? ('0' :: '0' :: high :: low :: rest) = some (16 * first + second, rest) := by
  have zero : hexDigit? '0' = some 0 := rfl
  simp [codeUnit?, zero, highMeaning, lowMeaning, Nat.mul_comm]

/-- The reader takes the written form of a character as a whole. -/
theorem readText_spelling {c : Char} {written : List Char} (spelling : Spelling c written)
    (read rest : List Char) :
    readText read (written ++ rest) = readText (written.reverse ++ read) rest := by
  cases spelling with
  | plain printable quote backslash => exact readText_plain ⟨printable, quote, backslash⟩ read rest
  | short letter meaning =>
    rw [List.cons_append, List.singleton_append, readText]
    simp [meaning]
  | code high low small first second =>
    have zero : hexDigit? '0' = some 0 := rfl
    have unit := codeUnit?_of_hexDigit? first second rest
    simp only [List.cons_append, List.nil_append]
    rw [readText, if_pos (by simp [unit]), readText_plain (plain_of_hexDigit? zero),
      readText_plain (plain_of_hexDigit? zero), readText_plain (plain_of_hexDigit? first),
      readText_plain (plain_of_hexDigit? second)]
    rfl

/-- A text is read up to its closing quote. -/
theorem readText_escaped (text read rest : List Char) :
    readText read (escaped text ++ '"' :: rest) = some (read.reverse ++ escaped text, rest) := by
  induction text generalizing read with
  | nil => simp [escaped, readText]
  | cons c text ih =>
    rw [escaped_cons, List.append_assoc, readText_spelling (spelling_escapedChar c), ih]
    simp

/-- The written form of a character stands for it. -/
theorem textFrom_spelling {c : Char} {written : List Char} (spelling : Spelling c written)
    (read rest : List Char) (fuel : Nat) :
    textFrom read (written ++ rest) (fuel + 1) = textFrom (c :: read) rest fuel := by
  cases spelling with
  | plain printable quote backslash =>
    rw [List.singleton_append, textFrom]
    · exact fun _ escape _ => backslash escape
    · exact fun _ _ escape _ => backslash escape
  | short letter meaning =>
    have notCode : letter ≠ 'u' := by
      rintro rfl
      exact nomatch meaning
    rw [List.cons_append, List.singleton_append, textFrom, meaning]
    exact notCode
  | code high low small first second =>
    have unit := codeUnit?_of_hexDigit? first second rest
    rw [Nat.div_add_mod] at unit
    have point : codePoint? ('0' :: '0' :: high :: low :: rest) = some (c, rest) := by
      simp only [codePoint?, unit]
      rw [if_neg (by omega), if_neg (by omega), c.ofNat_toNat]
    simp [textFrom, point]

theorem textFrom_escaped (text read : List Char) {fuel : Nat} (enough : text.length < fuel) :
    textFrom read (escaped text) fuel = some (String.ofList (read.reverse ++ text)) := by
  induction text generalizing read fuel with
  | nil =>
    obtain ⟨fuel, rfl⟩ := Nat.exists_eq_add_of_le' enough
    simp [escaped, textFrom]
  | cons c text ih =>
    obtain ⟨fuel, rfl⟩ := Nat.exists_eq_add_of_le' (Nat.zero_lt_of_lt enough)
    rw [escaped_cons, textFrom_spelling (spelling_escapedChar c),
      ih (c :: read) (Nat.lt_of_succ_lt_succ enough)]
    simp

/-- What stands between the quotes of a text stands for the text. -/
theorem textOf?_escaped (text : String) : textOf? (escaped text.toList) = some text := by
  have enough : text.toList.length < (escaped text.toList).length + 1 :=
    Nat.lt_succ_of_le (length_le_length_escaped text.toList)
  rw [textOf?, textFrom_escaped _ _ enough]
  simp

end RawJson

end Medals
