import Folio.Template.Basic
import Mathlib.Tactic

/-!
# Tokens of a line

What is cut off at the front of a line: a character of the text, a doubled brace, a closing
brace by itself, a substitution, or a brace that nothing closes.
-/

namespace Folio.Template

variable {isCode : ℕ → Bool} {line column : ℕ} {c : Char} {s inner : List Char}

theorem lineTokens_text (text : (c ≠ '\x7b' ∧ c ≠ '\x7d') ∨ isCode column = true) :
    lineTokens isCode line column (c :: s) = .char c :: lineTokens isCode line (column + c.utf8Size) s := by
  rw [lineTokens.eq_def]
  exact if_pos text

/-- A brace outside code is no text by itself. -/
theorem not_text (brace : c = '\x7b' ∨ c = '\x7d') (noCode : isCode column = false) :
    ¬((c ≠ '\x7b' ∧ c ≠ '\x7d') ∨ isCode column = true) := by
  rintro (other | inCode)
  · exact brace.elim other.1 other.2
  · rw [noCode] at inCode
    contradiction

theorem lineTokens_doubled (brace : c = '\x7b' ∨ c = '\x7d') (noCode : isCode column = false) :
    lineTokens isCode line column (c :: c :: s) = .char c :: lineTokens isCode line (column + 2) s := by
  rw [lineTokens.eq_def]
  dsimp only
  rw [if_neg (not_text brace noCode), if_pos rfl]

theorem lineTokens_closing (alone : s.head? ≠ some '\x7d') (noCode : isCode column = false) :
    lineTokens isCode line column ('\x7d' :: s) = .char '\x7d' :: lineTokens isCode line (column + 1) s := by
  rw [lineTokens.eq_def]
  dsimp only
  rw [if_neg (not_text (.inr rfl) noCode)]
  cases s with
  | nil =>
    rw [lineTokens]
    rfl
  | cons d more =>
    have other : d ≠ '\x7d' := fun same => alone (by rw [same]; rfl)
    dsimp only
    rw [if_neg other, if_pos rfl]

theorem lineTokens_substitution (single : inner.head? ≠ some '\x7b') (noCode : isCode column = false)
    (found : splitAtBrace none (inner ++ '\x7d' :: s) = some (inner, s)) :
    lineTokens isCode line column ('\x7b' :: (inner ++ '\x7d' :: s)) =
      .substitution line inner :: lineTokens isCode line (column + Text.byteLength inner + 2) s := by
  obtain ⟨d, more, front⟩ : ∃ d more, inner ++ '\x7d' :: s = d :: more := by cases inner <;> simp
  have other : d ≠ '\x7b' := by
    cases inner with
    | nil =>
      obtain rfl := (List.cons.inj front).1
      decide
    | cons c inner =>
      obtain rfl := (List.cons.inj front).1
      exact fun same => single (by rw [same]; rfl)
  rw [front] at found ⊢
  rw [lineTokens.eq_def]
  dsimp only
  rw [if_neg (not_text (.inl rfl) noCode), if_neg other, if_neg (by decide)]
  split
  · rename_i lost
    rw [found] at lost
    contradiction
  · rename_i found'
    rw [found] at found'
    cases found'
    rfl

theorem lineTokens_open (single : s.head? ≠ some '\x7b') (noCode : isCode column = false)
    (lost : splitAtBrace none s = none) : lineTokens isCode line column ('\x7b' :: s) = [.openBrace line] := by
  rw [lineTokens.eq_def]
  dsimp only
  rw [if_neg (not_text (.inl rfl) noCode)]
  cases s with
  | nil => exact if_neg (by decide)
  | cons d more =>
    have other : d ≠ '\x7b' := fun same => single (by rw [same]; rfl)
    dsimp only
    rw [if_neg other, if_neg (by decide)]
    split
    · rfl
    · rename_i found
      rw [lost] at found
      contradiction

end Folio.Template
