import Mathlib.Data.Nat.Find
import Folio.Console

/-!
# Messages that fit on a line

A text is truncated to the longest of its beginnings that a limit of bytes allows, also where the limit falls
inside a character.  So a message of one line fits on a line of the console together with its name.

Main statements: `truncated_to_longest`, and `Message.shown_begins`, `Message.shown_fits`.
-/

namespace Folio

namespace Text

variable {bytes : List UInt8} {index limit : ℕ}

/-! ## The last boundary -/

theorem lastBoundary_eq_findGreatest (bytes : List UInt8) (limit : ℕ) :
    lastBoundary bytes limit = Nat.findGreatest (isBoundary bytes ·) limit := by
  induction limit with
  | zero => rfl
  | succ limit ih => rw [lastBoundary, Nat.findGreatest_succ, ih]

theorem lastBoundary_le (bytes : List UInt8) (limit : ℕ) : lastBoundary bytes limit ≤ limit := by
  rw [lastBoundary_eq_findGreatest]
  exact Nat.findGreatest_le limit

theorem le_lastBoundary (cut : isBoundary bytes index) (fits : index ≤ limit) : index ≤ lastBoundary bytes limit := by
  rw [lastBoundary_eq_findGreatest]
  exact Nat.le_findGreatest fits cut

/-! ## Truncated texts -/

/-- What a text is truncated to ends at the last boundary up to the limit. -/
theorem exists_truncate?_eq (text : String) (limit : ℕ) :
    ∃ front back, front ++ back = text ∧ truncate? text limit = some front ∧
      front.utf8ByteSize = lastBoundary (encode text) limit := by
  obtain ⟨front, back, whole, cut, size⟩ := exists_cutAt?_lastBoundary text limit
  rw [truncate?]
  split_ifs with fits
  · -- Where nothing is cut off, the last boundary is the end of the text.
    refine ⟨text, "", String.append_empty, rfl, le_antisymm ?_ ?_⟩
    · exact le_lastBoundary (isBoundary_encode_iff.mpr ⟨text, "", String.append_empty, rfl⟩) fits
    · rw [← size, ← whole, String.utf8ByteSize_append]
      exact Nat.le_add_right _ _
  · exact ⟨front, back, whole, cut, size⟩

theorem exists_truncate_append (text : String) (limit : ℕ) :
    ∃ rest, truncate text limit ++ rest = text ∧
      (truncate text limit).utf8ByteSize = lastBoundary (encode text) limit := by
  obtain ⟨front, rest, whole, truncated, size⟩ := exists_truncate?_eq text limit
  have same : truncate text limit = front := by simp only [truncate, truncated, Option.get_some]
  rw [same]
  exact ⟨rest, whole, size⟩

/-- A text is truncated whatever the limit is.  What is left of it is a beginning that takes at most so many
bytes, and a longer beginning that ends between two characters takes more. -/
theorem truncated_to_longest (text : String) (limit : ℕ) :
    ∃ cut, truncate? text limit = some cut ∧ (∃ rest, cut ++ rest = text) ∧ cut.utf8ByteSize ≤ limit ∧
      ∀ front back, front ++ back = text → cut.utf8ByteSize < front.utf8ByteSize → limit < front.utf8ByteSize := by
  obtain ⟨cut, rest, whole, truncated, size⟩ := exists_truncate?_eq text limit
  refine ⟨cut, truncated, ⟨rest, whole⟩, ?_, ?_⟩
  · rw [size]
    exact lastBoundary_le _ limit
  · intro front back split longer
    by_contra within
    have boundary : isBoundary (encode text) front.utf8ByteSize := isBoundary_encode_iff.mpr ⟨front, back, split, rfl⟩
    have reached : front.utf8ByteSize ≤ cut.utf8ByteSize := by
      rw [size]
      exact le_lastBoundary boundary (Nat.not_lt.mp within)
    exact absurd longer (Nat.not_lt.mpr reached)

/-- The fourth byte lies in the middle of the second sign. -/
example : truncate? "€€" 4 = some "€" := by decide

end Text

namespace Console

variable {m : Message} {width : ℕ}

/-! ## Messages on a line -/

/-- What is shown of a message is a beginning of it. -/
theorem Message.shown_begins (width : ℕ) (m : Message) : ∃ rest, m.shown width ++ rest = m.text := by
  rw [Message.shown]
  split_ifs
  · exact ⟨"", String.append_empty⟩
  · obtain ⟨rest, whole, -⟩ := Text.exists_truncate_append m.text (width - m.labelWidth)
    exact ⟨rest, whole⟩

/-- A message of one line fits on a line together with its name, unless the name alone does not. -/
theorem Message.shown_fits (oneLine : '\n' ∉ m.text.toList) (room : m.labelWidth ≤ width) :
    m.labelWidth + (m.shown width).utf8ByteSize ≤ width := by
  obtain ⟨rest, -, size⟩ := Text.exists_truncate_append m.text (width - m.labelWidth)
  have fits := Text.lastBoundary_le (Text.encode m.text) (width - m.labelWidth)
  rw [Message.shown, if_neg (by simpa using oneLine), size]
  omega

end Console

end Folio
