import Folio.SitePath

/-!
# The pieces of a path

A path is cut at its separators, so the pieces of two paths with a separator between them
are those of the one and then those of the other.
-/

namespace Folio.SitePath

variable {isSeparator : Char → Bool} {cs : List Char}

theorem pieces_of_absent (absent : ∀ c ∈ cs, isSeparator c = false) : pieces isSeparator cs = [cs] := by
  induction cs with
  | nil => rfl
  | cons c cs ih =>
    have first := absent c (List.mem_cons_self ..)
    have others := ih fun d mem => absent d (List.mem_cons_of_mem _ mem)
    simp [pieces, first, others]

theorem pieces_ne_nil (cs : List Char) : pieces isSeparator cs ≠ [] := by
  cases cs with
  | nil => simp [pieces]
  | cons c cs =>
    rw [pieces]
    split
    · simp
    · split <;> simp

theorem pieces_append {c : Char} (separates : isSeparator c = true) (front back : List Char) :
    pieces isSeparator (front ++ c :: back) = pieces isSeparator front ++ pieces isSeparator back := by
  induction front with
  | nil => simp [pieces, separates]
  | cons d front ih =>
    rw [List.cons_append, pieces, pieces, ih]
    split
    · rfl
    · cases first : pieces isSeparator front with
      | nil => exact absurd first (pieces_ne_nil front)
      | cons piece more => rfl

theorem absent_of_mem_pieces {piece : List Char} (mem : piece ∈ pieces isSeparator cs) :
    ∀ c ∈ piece, isSeparator c = false := by
  induction cs generalizing piece with
  | nil =>
    obtain rfl : piece = [] := by simpa [pieces] using mem
    simp
  | cons d cs ih =>
    rw [pieces] at mem
    split at mem
    · obtain rfl | mem := List.mem_cons.mp mem
      · simp
      · exact ih mem
    · rename_i joins
      have other : isSeparator d = false := by simpa using joins
      split at mem
      · rename_i first more cut
        rw [cut] at ih
        obtain rfl | mem := List.mem_cons.mp mem
        · simpa [other] using ih List.mem_cons_self
        · exact ih (List.mem_cons_of_mem _ mem)
      · obtain rfl := List.mem_singleton.mp mem
        simpa using other

/-! ## Pages -/

theorem segments_page (directory : List String) (name : String) :
    ((⟨directory ++ [name]⟩ : SitePath).withExtension "html").segments = directory ++ [stemOf name ++ ".html"] := by
  rw [withExtension, show ".html" = "." ++ "html" from rfl, ← String.append_assoc]
  simp

end Folio.SitePath
