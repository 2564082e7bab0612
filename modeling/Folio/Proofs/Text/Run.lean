import Folio.Text.Blank
import Mathlib.Data.List.TakeWhile
import Mathlib.Tactic

/-!
# Runs of characters

Where a run of characters ends, and trimming: a text is its own trimming if no blank
stands at the end in question.
-/

namespace Folio.Text

/-- A run of characters ends where the text after it begins with another one. -/
theorem takeWhile_run {p : Char → Bool} {s t : List Char} (run : ∀ c ∈ s, p c = true)
    (stops : ∀ c ∈ t.head?, p c = false) : (s ++ t).takeWhile p = s ∧ (s ++ t).dropWhile p = t := by
  have tail : t.takeWhile p = [] ∧ t.dropWhile p = t := by
    cases t with
    | nil => exact ⟨rfl, rfl⟩
    | cons c t =>
      have stop : p c = false := stops c rfl
      simp [stop]
  rw [List.takeWhile_append_of_pos run, List.dropWhile_append_of_pos run, tail.1, tail.2]
  simp

theorem isBlank_eq_false {p : Char → Bool} (apart : blankChars.any p = false) {c : Char} (holds : p c = true) :
    isBlank c = false := by
  by_contra blank
  have mem : c ∈ blankChars := by simpa [isBlank] using blank
  exact List.any_eq_false.1 apart c mem holds

theorem isBlank_of_isDigit {c : Char} (digit : c.isDigit = true) : isBlank c = false :=
  isBlank_eq_false (p := Char.isDigit) (by decide) digit

theorem trimStartChars_cons {c : Char} (shown : isBlank c = false) (s : List Char) :
    trimStartChars (c :: s) = c :: s := by
  simp [trimStartChars, shown]

theorem trimStartChars_eq_self {s : List Char} (shown : ∀ c ∈ s.head?, isBlank c = false) :
    trimStartChars s = s := by
  cases s with
  | nil => rfl
  | cons c s => exact trimStartChars_cons (shown c rfl) s

theorem trimEndChars_eq_self {s : List Char} (shown : ∀ c ∈ s.getLast?, isBlank c = false) :
    trimEndChars s = s := by
  have front : trimStartChars s.reverse = s.reverse :=
    trimStartChars_eq_self fun c last => shown c (by rwa [List.head?_reverse] at last)
  rw [trimEndChars, ← trimStartChars, front, List.reverse_reverse]

theorem trimChars_eq_self {s : List Char} (shown : ∀ c ∈ s, isBlank c = false) : trimChars s = s := by
  rw [trimChars, trimStartChars_eq_self fun c first => shown c (List.mem_of_mem_head? first),
    trimEndChars_eq_self fun c last => shown c (List.mem_of_mem_getLast? last)]

/-! ## Ends of texts -/

/-- What is dropped from the end of a text is dropped behind a character that stays. -/
theorem dropEnd_append {p : Char → Bool} {c : Char} (stays : p c = false) (s t : List Char) :
    ((s ++ c :: t).reverse.dropWhile p).reverse = s ++ c :: (t.reverse.dropWhile p).reverse := by
  rw [List.reverse_append, List.reverse_cons, List.append_assoc, List.dropWhile_append]
  split
  · rename_i all
    have none : t.reverse.dropWhile p = [] := by simpa using all
    simp [none, stays]
  · simp

theorem dropEnd_suffix (p : Char → Bool) (s : List Char) :
    ∃ t, s = (s.reverse.dropWhile p).reverse ++ t ∧ ∀ c ∈ t, p c = true := by
  refine ⟨(s.reverse.takeWhile p).reverse, ?_, fun c mem => List.mem_takeWhile_imp (List.mem_reverse.mp mem)⟩
  rw [← List.reverse_append, List.takeWhile_append_dropWhile, List.reverse_reverse]

theorem trimChars_append {t : List Char} (blank : ∀ c ∈ t, isBlank c = true) (s : List Char) :
    trimChars (s ++ t) = trimChars s := by
  rw [trimChars, trimStartChars, List.dropWhile_append, trimChars, trimStartChars]
  split
  · rename_i all
    have none : s.dropWhile isBlank = [] := by simpa using all
    have none' : t.dropWhile isBlank = [] := by simpa using blank
    rw [none, none']
  · rw [trimEndChars, trimEndChars, List.reverse_append, List.dropWhile_append_of_pos (by simpa using blank)]

end Folio.Text
