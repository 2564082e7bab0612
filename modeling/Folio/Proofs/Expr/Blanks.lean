import Folio.Proofs.Expr.Grammar

/-!
# Blanks around expressions

The blanks at the two ends of a text belong to none of its terms.  So a text that is trimmed reads as
the expression that it read as before.

Main statement: `parse_trimChars`.
-/

namespace Folio

open Text (isBlank trimChars trimStartChars)

theorem Terms.of_blank_front {c : Char} {s : List Char} {es : List Expr} (blank : isBlank c = true)
    (text : Terms .list (c :: s) es) : Terms .list s es := by
  rw [← scan_eq_ok_iff] at text ⊢
  rwa [scan_idle .list [] (show ExprForm.isIdle .list c = true from blank)] at text

/-- A character that no piece in front ends with belongs to what follows the piece. -/
theorem exists_of_append_eq {piece rest s : List Char} {c d : Char} (last : piece.getLast? = some d) (other : d ≠ c)
    (same : piece ++ rest = s ++ [c]) : ∃ front, rest = front ++ [c] ∧ s = piece ++ front := by
  obtain rfl | ⟨front, e, rfl⟩ := List.eq_nil_or_concat rest
  · rw [List.append_nil] at same
    rw [same, List.getLast?_concat] at last
    exact absurd (Option.some_inj.1 last).symm other
  · rw [List.concat_eq_append, ← List.append_assoc] at same
    obtain ⟨rfl, ends⟩ := List.append_inj' same rfl
    obtain rfl := List.singleton_inj.1 ends
    exact ⟨front, by rw [List.concat_eq_append], rfl⟩

/-- A blank at the end belongs to no term. -/
theorem Terms.of_blank_end {form : ExprForm} {whole : List Char} {es : List Expr} (text : Terms form whole es) :
    ∀ {s : List Char} {c : Char}, form = .list → whole = s ++ [c] → isBlank c = true → Terms .list s es := by
  induction text with
  | nil =>
    intro s c _ same
    simp at same
  | @idle form d rest es idle others ih =>
    rintro s c rfl same blank
    obtain rfl | ⟨front, last, rfl⟩ := List.eq_nil_or_concat rest
    · obtain rfl : s = [] := by simpa using congrArg List.length same
      exact others
    · rw [List.concat_eq_append, ← List.cons_append] at same
      obtain ⟨rfl, ends⟩ := List.append_inj' same rfl
      obtain rfl := List.singleton_inj.1 ends
      exact .idle idle (ih rfl (by rw [List.concat_eq_append]) blank)
  -- Every other piece ends with a character that is no blank, so the blank stands in what follows it.
  | @quoted form quote literal rest es isQuote absent others ih =>
    rintro s c rfl same blank
    have split : (quote :: (literal ++ [quote])) ++ rest = s ++ [c] := by simpa using same
    have other : quote ≠ c := by
      rintro rfl
      obtain rfl | rfl := isQuote <;> contradiction
    have last : (quote :: (literal ++ [quote])).getLast? = some quote := by
      rw [← List.cons_append, List.getLast?_concat]
    obtain ⟨front, rfl, rfl⟩ := exists_of_append_eq last other split
    simpa using Terms.quoted isQuote absent (ih rfl rfl blank)
  | @bracket form b inner rest parts es e inside yields others _ ih =>
    rintro s c rfl same blank
    have split : (b.opener :: (inner ++ [b.closer])) ++ rest = s ++ [c] := by simpa using same
    have other : b.closer ≠ c := by
      rintro rfl
      cases b <;> contradiction
    have last : (b.opener :: (inner ++ [b.closer])).getLast? = some b.closer := by
      rw [← List.cons_append, List.getLast?_concat]
    obtain ⟨front, rfl, rfl⟩ := exists_of_append_eq last other split
    simpa using Terms.bracket inside yields (ih rfl rfl blank)
  | @token form d more rest es starts goesOn ends others ih =>
    rintro s c rfl same blank
    have split : (d :: more) ++ rest = s ++ [c] := same
    obtain ⟨last, isLast⟩ : ∃ last, (d :: more).getLast? = some last := ⟨_, List.getLast?_eq_some_getLast (by simp)⟩
    have other : last ≠ c := by
      rintro rfl
      obtain rfl | mem := List.mem_cons.1 (List.mem_of_mem_getLast? isLast)
      · have shown := starts.noIdle
        rw [ExprForm.isIdle, blank] at shown
        contradiction
      · have shown := goesOn last mem
        rw [ExprForm.isTerminator, blank] at shown
        contradiction
    obtain ⟨front, rfl, rfl⟩ := exists_of_append_eq isLast other split
    exact .token starts goesOn (ends.front (List.prefix_append front [c])) (ih rfl rfl blank)

theorem Terms.of_blanks_end {s blanks : List Char} {es : List Expr} (blank : ∀ c ∈ blanks, isBlank c = true)
    (text : Terms .list (s ++ blanks) es) : Terms .list s es := by
  induction blanks generalizing s with
  | nil => rwa [List.append_nil] at text
  | cons c blanks ih =>
    obtain ⟨first, others⟩ := List.forall_mem_cons.1 blank
    have split : s ++ c :: blanks = (s ++ [c]) ++ blanks := by simp
    rw [split] at text
    exact (ih others text).of_blank_end rfl rfl first

/-- What is trimmed off a text belongs to no term. -/
theorem Terms.trimChars {s : List Char} {es : List Expr} (text : Terms .list s es) : Terms .list (trimChars s) es := by
  have front : Terms .list (trimStartChars s) es := by
    induction s with
    | nil => exact text
    | cons c s ih =>
      rw [trimStartChars, List.dropWhile_cons]
      split_ifs with blank
      · exact ih (text.of_blank_front blank)
      · exact text
  obtain ⟨blanks, whole, blank⟩ := Text.dropEnd_suffix isBlank (trimStartChars s)
  rw [whole] at front
  exact front.of_blanks_end blank

/-- An expression is the same without the blanks around it. -/
theorem parse_trimChars {s : List Char} {e : Expr} (read : Expr.parse .list (String.ofList s) = .ok e) :
    Expr.parse .list (String.ofList (trimChars s)) = .ok e := by
  have parse_eq (s : List Char) : Expr.parse .list (String.ofList s) = .ok e ↔ Grammatical .list s e := by
    rw [← read_eq_ok_iff, Expr.parse, String.toList_ofList]
    cases ExprForm.list.read s <;> simp
  obtain ⟨terms, text, yields⟩ := (parse_eq s).1 read
  exact (parse_eq _).2 ⟨terms, text.trimChars, yields⟩

end Folio
