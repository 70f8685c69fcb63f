import Mathlib.Data.List.Infix
import Medals.Text.Lower

/-!
# The lower case of a piece of text

A letter is lowered on its own, except a capital sigma, which looks at the letters around it. A
piece of a text is therefore lowered as if it stood alone exactly when none of its capital sigmas
turns, that is, takes another form in the text than in the piece (`lowerPiece_eq_lowerChars_iff`).
`SigmaTurns` names the two ways in which one does.
-/

namespace Medals

/-- A capital sigma between these texts ends a word. The text before it is given nearest character
first. -/
def endsWord (before after : List Char) : Bool :=
  meetsCased before && !meetsCased after

/-- The lower-case form of a letter between two texts. -/
def lowerLetter (before : List Char) (c : Char) (after : List Char) : List Char :=
  if c = '\u03a3' then [if endsWord before after then '\u03c2' else '\u03c3'] else lowerChar c

/-- The lower-case form of a piece between two texts. -/
def lowerPiece (before : List Char) : (piece after : List Char) → List Char
  | [], _ => []
  | c :: rest, after => lowerLetter before c (rest ++ after) ++ lowerPiece (c :: before) rest after

/-- A text is lowered piece by piece, each between those around it. -/
theorem lowerAfter_append (before piece after : List Char) :
    lowerAfter before (piece ++ after) =
      lowerPiece before piece after ++ lowerAfter (piece.reverse ++ before) after := by
  induction piece generalizing before with
  | nil => rfl
  | cons c rest ih =>
    rw [List.cons_append, lowerAfter, ih, lowerPiece, List.reverse_cons, List.append_assoc,
      List.append_assoc]
    rfl

/-- A text alone is a piece with nothing around it. -/
theorem lowerChars_eq_lowerPiece (piece : List Char) : lowerChars piece = lowerPiece [] piece [] := by
  have whole := lowerAfter_append [] piece []
  rwa [List.append_nil, lowerAfter, List.append_nil] at whole

theorem length_lowerLetter (before after others further : List Char) (c : Char) :
    (lowerLetter before c after).length = (lowerLetter others c further).length := by
  unfold lowerLetter
  split <;> rfl

theorem lowerLetter_eq_iff {before after others further : List Char} {c : Char} :
    lowerLetter before c after = lowerLetter others c further ↔
      (c = '\u03a3' → endsWord before after = endsWord others further) := by
  unfold lowerLetter
  by_cases sigma : c = '\u03a3'
  · cases endsWord before after <;> cases endsWord others further <;> simp [sigma]
  · simp [sigma]

/-- What stands around a piece does not change its length in lower case. -/
theorem length_lowerPiece (before after others further piece : List Char) :
    (lowerPiece before piece after).length = (lowerPiece others piece further).length := by
  induction piece generalizing before others with
  | nil => rfl
  | cons c rest ih =>
    rw [lowerPiece, lowerPiece, List.length_append, List.length_append, ih (c :: before) (c :: others),
      length_lowerLetter before (rest ++ after) others (rest ++ further)]

/-- A piece has one lower-case form in two places exactly when each of its capital sigmas ends a word
in both or in neither. The induction takes the letters of the piece over to what precedes the rest. -/
theorem lowerPiece_eq_iff {before after others further piece : List Char} :
    lowerPiece before piece after = lowerPiece others piece further ↔
      ∀ left right, piece = left ++ '\u03a3' :: right →
        endsWord (left.reverse ++ before) (right ++ after) =
          endsWord (left.reverse ++ others) (right ++ further) := by
  induction piece generalizing before others with
  | nil => simp [lowerPiece]
  | cons c rest ih =>
    have first : lowerPiece before (c :: rest) after = lowerPiece others (c :: rest) further ↔
        lowerLetter before c (rest ++ after) = lowerLetter others c (rest ++ further) ∧
          lowerPiece (c :: before) rest after = lowerPiece (c :: others) rest further :=
      ⟨fun same => List.append_inj same (length_lowerLetter _ _ _ _ c),
        fun same => congrArg₂ (· ++ ·) same.1 same.2⟩
    rw [first, lowerLetter_eq_iff, ih]
    constructor
    · rintro ⟨here, later⟩ left right split
      cases left with
      | nil =>
        obtain ⟨rfl, rfl⟩ := List.cons.inj split
        exact here rfl
      | cons head left =>
        obtain ⟨rfl, rfl⟩ := List.cons.inj split
        simpa using later left right rfl
    · intro each
      refine ⟨?_, fun left right split => ?_⟩
      · rintro rfl
        exact each [] rest rfl
      · subst split
        simpa using each (c :: left) right rfl

theorem meetsCased_of_ignorable {chars : List Char} (ignorable : chars.all isCaseIgnorable = true) :
    meetsCased chars = false := by
  have none : chars.find? (fun c => !isCaseIgnorable c) = none := by simpa using ignorable
  rw [meetsCased, none]

/-- What is met first is in the second text only if there is nothing to meet in the first. -/
theorem meetsCased_append (chars others : List Char) :
    meetsCased (chars ++ others) =
      if chars.all isCaseIgnorable then meetsCased others else meetsCased chars := by
  unfold meetsCased
  rw [List.find?_append]
  cases found : chars.find? fun c => !isCaseIgnorable c with
  | none =>
    have ignorable : chars.all isCaseIgnorable = true := by simpa using found
    rw [if_pos ignorable, Option.none_or]
  | some c =>
    have other : ¬ chars.all isCaseIgnorable = true := fun ignorable => by
      have none : chars.find? (fun c => !isCaseIgnorable c) = none := by simpa using ignorable
      rw [none] at found
      contradiction
    rw [if_neg other, Option.some_or]

/-- The form that a capital sigma has alone among the letters of a piece is not the one that it has
in a text. Either it ends a word that begins in front of the piece, or it ends the word in the piece
and the word goes on behind it. What precedes is given nearest character first. -/
def SigmaTurns (before left right after : List Char) : Prop :=
  (left.all isCaseIgnorable = true ∧ meetsCased before = true ∧
      meetsCased (right ++ after) = false) ∨
    (meetsCased left = true ∧ right.all isCaseIgnorable = true ∧ meetsCased after = true)

instance (before left right after : List Char) : Decidable (SigmaTurns before left right after) :=
  inferInstanceAs (Decidable (_ ∨ _))

theorem endsWord_ne_iff {before left right after : List Char} :
    endsWord (left ++ before) (right ++ after) ≠ endsWord left right ↔
      SigmaTurns before left right after := by
  unfold endsWord SigmaTurns
  rw [meetsCased_append left, meetsCased_append right]
  cases leftIgnorable : left.all isCaseIgnorable <;>
    cases rightIgnorable : right.all isCaseIgnorable <;>
    simp [meetsCased_of_ignorable, leftIgnorable, rightIgnorable, -List.all_eq_true]

/-- Some capital sigma of a piece takes another form between two texts than in the piece alone. -/
def TurnsSigma (front piece back : List Char) : Prop :=
  ∃ left right, piece = left ++ '\u03a3' :: right ∧
    SigmaTurns front.reverse left.reverse right back

theorem not_turnsSigma_of_not_mem {front piece back : List Char} (none : '\u03a3' ∉ piece) :
    ¬ TurnsSigma front piece back := by
  rintro ⟨left, right, rfl, -⟩
  simp at none

/-- A piece of a text is lowered as it is alone exactly when none of its capital sigmas turns. -/
theorem lowerPiece_eq_lowerChars_iff {front piece back : List Char} :
    lowerPiece front.reverse piece back = lowerChars piece ↔ ¬ TurnsSigma front piece back := by
  rw [lowerChars_eq_lowerPiece, lowerPiece_eq_iff, TurnsSigma]
  simp only [not_exists, not_and, ← endsWord_ne_iff, not_not, List.append_nil]

/-- The lower-case form of a text has those of its pieces in their order. -/
theorem lowerChars_append_append (front piece back : List Char) :
    lowerChars (front ++ piece ++ back) =
      lowerPiece [] front (piece ++ back) ++ lowerPiece front.reverse piece back ++
        lowerAfter (piece.reverse ++ front.reverse) back := by
  rw [List.append_assoc, lowerChars, lowerAfter_append, List.append_nil, lowerAfter_append,
    List.append_assoc]

/-- The search finds a text exactly where it stands. -/
theorem containsChars_iff {needle chars : List Char} :
    containsChars needle chars = true ↔ needle <:+: chars := by
  induction chars with
  | nil => simp [containsChars]
  | cons c rest ih =>
    rw [containsChars, Bool.or_eq_true, List.isPrefixOf_iff_prefix, ih, List.infix_cons_iff]

end Medals
