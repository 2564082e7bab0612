import Folio.Text.Lines
import Mathlib.Tactic

/-!
# Cutting a text into lines

A text that is put together from lines is cut into these lines again, whatever follows them.
-/

namespace Folio.Text

variable {s : List Char} {lines : List (List Char)}

theorem linesOf_append (present : s ≠ []) (oneLine : '\n' ∉ s) (rest : List Char) :
    linesOf (s ++ rest) = (s ++ (linesOf rest).headD []) :: (linesOf rest).tail := by
  -- The induction is on the first line; the rest of the text only completes its end.
  induction s with
  | nil => contradiction
  | cons c s ih =>
    simp only [List.mem_cons, not_or] at oneLine
    rw [List.cons_append, linesOf, if_neg (Ne.symm oneLine.1)]
    cases s with
    | nil =>
      rw [List.nil_append]
      cases linesOf rest <;> rfl
    | cons d s =>
      rw [ih (by simp) oneLine.2]
      rfl

theorem linesOf_oneLine (present : s ≠ []) (oneLine : '\n' ∉ s) : linesOf s = [s] := by
  have lines := linesOf_append present oneLine []
  rw [List.append_nil] at lines
  rw [lines]
  simp [linesOf]

theorem linesOf_line (oneLine : '\n' ∉ s) (below : List Char) :
    linesOf (s ++ '\n' :: below) = (s ++ ['\n']) :: linesOf below := by
  have last : linesOf ('\n' :: below) = ['\n'] :: linesOf below := by rw [linesOf, if_pos rfl]
  by_cases empty : s = []
  · rw [empty]
    exact last
  · rw [linesOf_append empty oneLine, last]
    rfl

/-- Whole lines are cut off as they are. -/
theorem linesOf_flatten (whole : ∀ line ∈ lines, ∃ s, line = s ++ ['\n'] ∧ '\n' ∉ s) (below : List Char) :
    linesOf (lines.flatten ++ below) = lines ++ linesOf below := by
  induction lines with
  | nil => rfl
  | cons line lines ih =>
    obtain ⟨⟨s, rfl, oneLine⟩, others⟩ := List.forall_mem_cons.mp whole
    rw [List.flatten_cons, List.append_assoc, List.append_assoc, List.singleton_append, linesOf_line oneLine, ih others,
      List.cons_append]

def EndsLine (s : List Char) : Prop :=
  ∀ c ∈ s.getLast?, c = '\n'

/-- What follows a line feed begins a line of its own. -/
theorem linesOf_append_of_endsLine (ended : EndsLine s) (below : List Char) :
    linesOf (s ++ below) = linesOf s ++ linesOf below := by
  induction s with
  | nil => rfl
  | cons c s ih =>
    rw [List.cons_append, linesOf, linesOf]
    cases s with
    | nil =>
      obtain rfl := ended c rfl
      rw [if_pos rfl, if_pos rfl]
      rfl
    | cons d s =>
      rw [ih fun e last => ended e (by simpa using last)]
      split_ifs with feed
      · rfl
      · -- There is a first line, since there is a first character.
        have some : linesOf (d :: s) ≠ [] := by
          intro none
          have whole := flatten_linesOf (d :: s)
          simp [none] at whole
        obtain ⟨line, lines, spelled⟩ := List.exists_cons_of_ne_nil some
        rw [spelled]
        rfl

end Folio.Text
