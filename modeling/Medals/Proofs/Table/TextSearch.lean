import Medals.Proofs.Text.LoweredPieces
import Medals.Table.Filter

/-!
# What a search for text finds

A search lowers the cell and the needle apart. `Condition.accepts_piece` says when it finds a needle
that literally stands in a text: unless a capital sigma of the needle takes another form in the text
than in the needle alone. The search for a start fails exactly then, and a needle without a capital
sigma is found wherever it stands.
-/

namespace Medals

namespace Condition

section Accepted

variable {column text needle : String}

theorem accepts_contains_iff :
    (contains column needle).test.accepts (.text text) = true ↔
      lowerChars needle.toList <:+: lowerChars text.toList :=
  containsChars_iff

theorem accepts_startsWith_iff :
    (startsWith column needle).test.accepts (.text text) = true ↔
      lowerChars needle.toList <+: lowerChars text.toList :=
  List.isPrefixOf_iff_prefix

/-- A piece of a text is found in it unless one of its capital sigmas turns. -/
theorem accepts_contains_of_piece {front back : List Char}
    (occurs : text.toList = front ++ needle.toList ++ back)
    (alike : ¬ TurnsSigma front needle.toList back) :
    (contains column needle).test.accepts (.text text) = true := by
  rw [accepts_contains_iff, occurs, lowerChars_append_append,
    lowerPiece_eq_lowerChars_iff.mpr alike]
  exact List.infix_append _ _ _

/-- The start of a text is found exactly when none of its capital sigmas turns. A sigma that does
leaves the length as it is, so the lower-case forms cannot agree further on. -/
theorem accepts_startsWith_iff_of_start {back : List Char}
    (occurs : text.toList = needle.toList ++ back) :
    (startsWith column needle).test.accepts (.text text) = true ↔
      ¬ TurnsSigma [] needle.toList back := by
  have length : (lowerPiece [] needle.toList back).length = (lowerChars needle.toList).length := by
    rw [lowerChars_eq_lowerPiece, length_lowerPiece]
  rw [accepts_startsWith_iff, ← lowerPiece_eq_lowerChars_iff, occurs, lowerChars.eq_def (_ ++ _),
    lowerAfter_append, List.reverse_nil]
  constructor
  · intro begins
    exact ((List.prefix_iff_eq_take.mp begins).trans (List.take_left' length)).symm
  · intro alone
    rw [alone]
    exact List.prefix_append _ _

end Accepted

/-- A needle that stands in a text as a contiguous piece is found in it, unless one of its capital
sigmas takes another form in the text than in the needle alone. If it stands at the start, it is found
there exactly when this is not so. A needle without a capital sigma is found wherever it stands. -/
theorem accepts_piece (column : String) {text needle : String} {front back : List Char}
    (occurs : text.toList = front ++ needle.toList ++ back) :
    (¬ TurnsSigma front needle.toList back →
        (contains column needle).test.accepts (.text text) = true) ∧
      (front = [] → ((startsWith column needle).test.accepts (.text text) = true ↔
        ¬ TurnsSigma front needle.toList back)) ∧
      ('\u03a3' ∉ needle.toList →
        (contains column needle).test.accepts (.text text) = true ∧
          (front = [] → (startsWith column needle).test.accepts (.text text) = true)) := by
  have start : front = [] → ((startsWith column needle).test.accepts (.text text) = true ↔
      ¬ TurnsSigma front needle.toList back) := by
    rintro rfl
    exact accepts_startsWith_iff_of_start (by rwa [List.nil_append] at occurs)
  refine ⟨accepts_contains_of_piece occurs, start, fun none => ?_⟩
  have alike : ¬ TurnsSigma front needle.toList back := not_turnsSigma_of_not_mem none
  exact ⟨accepts_contains_of_piece occurs alike, fun first => (start first).mpr alike⟩

/-- The capital sigma inside `ΑΣΑ` is found with the letter behind it, and the start of `ΟΔΟΣ` up to
its sigma. -/
theorem accepts_piece_of_inner_sigma :
    "\u0391\u03a3\u0391".toList = ['\u0391'] ++ "\u03a3\u0391".toList ++ [] ∧
      (contains "Name" "\u03a3\u0391").test.accepts (.text "\u0391\u03a3\u0391") = true ∧
      (startsWith "Name" "\u039f\u0394").test.accepts (.text "\u039f\u0394\u039f\u03a3") = true := by
  have occurs : "\u0391\u03a3\u0391".toList = ['\u0391'] ++ "\u03a3\u0391".toList ++ [] := by decide
  have alike : ¬ TurnsSigma ['\u0391'] "\u03a3\u0391".toList [] := by
    rintro ⟨left, right, split, turns⟩
    cases left with
    | nil =>
      obtain rfl : ['\u0391'] = right := by simpa using split
      revert turns
      decide +kernel
    | cons head left =>
      have further : ['\u0391'] = left ++ '\u03a3' :: right := (List.cons.inj split).2
      cases left <;> simp at further
  refine ⟨occurs, (accepts_piece "Name" occurs).1 alike, ?_⟩
  exact ((accepts_piece "Name" (show "\u039f\u0394\u039f\u03a3".toList =
    [] ++ "\u039f\u0394".toList ++ ['\u039f', '\u03a3'] by decide)).2.2 (by decide)).2 rfl

/-- The capital sigma of `ΑΣ` ends a word and has its final form, but not that of `ΑΣΑ`: the search
misses the one in the other, also at the start. -/
theorem misses_piece :
    (¬ ∀ column text needle : String, needle.toList <:+: text.toList →
        (contains column needle).test.accepts (.text text) = true) ∧
      ¬ ∀ column text needle : String, needle.toList <+: text.toList →
        (startsWith column needle).test.accepts (.text text) = true := by
  have stands : "\u0391\u03a3".toList <+: "\u0391\u03a3\u0391".toList := by decide
  refine ⟨fun found => ?_, fun found => ?_⟩
  · have missed :
        (contains "Name" "\u0391\u03a3").test.accepts (.text "\u0391\u03a3\u0391") = false := by
      decide +kernel
    exact Bool.false_ne_true (missed.symm.trans (found _ _ _ stands.isInfix))
  · have missed :
        (startsWith "Name" "\u0391\u03a3").test.accepts (.text "\u0391\u03a3\u0391") = false := by
      decide +kernel
    exact Bool.false_ne_true (missed.symm.trans (found _ _ _ stands))

end Condition

end Medals
