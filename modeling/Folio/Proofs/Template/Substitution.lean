import Folio.Proofs.Expr.RoundTrip
import Folio.Template.Basic

/-!
# Expressions in braces

The text of an expression stands between braces as it is: a brace in it stands in quotes,
it has no blank at its ends, it does not leave its line, and it is none of the short forms
for blocks.

Main statements: `Printable.inner`, `Printable.parse_text`.
-/

namespace Folio

open Calendar (Timestamp)
open Decimal (IsNumber isInfinite)
open Text (isBlank isAlphabetic isAlphanumeric)

/-! ## Expressions whose text is read as they are -/

/-- Truth values, integers, finite floats, dates of four-digit years, strings on one line
that lack one of the two quotes, and names that do not spell a truth value in any case;
arrays of these, and applications to one argument at least. -/
inductive Printable : Expr → Prop where
  | bool (b : Bool) : Printable (.value (.bool b))
  | int (i : Int64) : Printable (.value (.int i))
  | float {x : Float} (number : IsNumber x) (finite : isInfinite x = false) : Printable (.value (.float x))
  | date {t : Timestamp} (written : t.Written) (least : 0 ≤ t.toLocal.date.year)
      (most : t.toLocal.date.year ≤ 9999) : Printable (.value (.date t))
  | str {s : String} (oneLine : '\n' ∉ s.toList) (oneQuote : ¬('\'' ∈ s.toList ∧ '"' ∈ s.toList)) :
      Printable (.value (.str s))
  | name {name : String} (shown : isIdentifier name.toList = true)
      (noTrue : name.toList.map Char.toLower ≠ "true".toList)
      (noFalse : name.toList.map Char.toLower ≠ "false".toList) : Printable (.variable name)
  | array {items : List Expr} (parts : ∀ e ∈ items, Printable e) : Printable (.array items)
  | apply {function : Expr} {args : List Expr} (head : Printable function) (present : args ≠ [])
      (parts : ∀ e ∈ args, Printable e) : Printable (.apply function args)

theorem Printable.parsed {e : Expr} (printable : Printable e) : Parsed e := by
  induction printable with
  | bool b => exact .leaf (.bool b)
  | int i => exact .leaf (.int i)
  | float number finite => exact .leaf (.float number)
  | date written least most => exact .leaf (.date written)
  | str oneLine oneQuote => exact .leaf (.str _)
  | name shown noTrue noFalse => exact .leaf (.name shown (classify_name shown noTrue noFalse))
  | array parts ih => exact .array ih
  | apply head present parts headParsed ih => exact .apply headParsed present ih

theorem Printable.kept {e : Expr} (printable : Printable e) : ∀ leaf ∈ e.leaves, ¬leaf.Lossy := by
  induction printable with
  | bool b => simp [Expr.leaves, Expr.Lossy]
  | int i => simp [Expr.leaves, Expr.Lossy]
  | float number finite => simp [Expr.leaves, Expr.Lossy, finite]
  | date written least most => simpa [Expr.leaves, Expr.Lossy, least] using most
  | str oneLine oneQuote => simpa [Expr.leaves, Expr.Lossy] using oneQuote
  | name shown noTrue noFalse => simp [Expr.leaves, Expr.Lossy]
  | array parts ih =>
    intro leaf mem
    obtain ⟨e, part, inside⟩ := mem_exprLeaves.1 mem
    exact ih e part leaf inside
  | apply head present parts headKept ih =>
    intro leaf mem
    obtain mem | mem := List.mem_append.1 mem
    · exact headKept leaf mem
    · obtain ⟨e, part, inside⟩ := mem_exprLeaves.1 mem
      exact ih e part leaf inside

/-! ## Braces in quotes -/

namespace Template

/-- A brace that closes is looked for after the text as it is before it. -/
def Passes (s : List Char) : Prop :=
  ∀ rest, splitAtBrace none (s ++ rest) = (splitAtBrace none rest).map fun found => (s ++ found.1, found.2)

theorem passes_nil : Passes [] := by
  intro rest
  simp

theorem Passes.append {s t : List Char} (first : Passes s) (second : Passes t) : Passes (s ++ t) := by
  intro rest
  rw [List.append_assoc, first, second, Option.map_map]
  congr 1
  funext found
  simp

theorem passes_char {c : Char} (noClose : c ≠ '\x7d') (noQuote : isQuote c = false) : Passes [c] := by
  intro rest
  simp [splitAtBrace, noClose, noQuote]
  rfl

theorem passes_of_plain {s : List Char} (plain : ∀ c ∈ s, Plain c) : Passes s := by
  induction s with
  | nil => exact passes_nil
  | cons c s ih =>
    obtain ⟨first, others⟩ := List.forall_mem_cons.1 plain
    exact (passes_char first.noClose first.noQuote).append (ih others)

/-- Within quotes every character but the quote is passed by. -/
theorem splitAtBrace_quoted {quote : Char} {s : List Char} (absent : quote ∉ s) (rest : List Char) :
    splitAtBrace (some quote) (s ++ quote :: rest) =
      (splitAtBrace none rest).map fun found => (s ++ quote :: found.1, found.2) := by
  induction s with
  | nil =>
    simp [splitAtBrace]
    rfl
  | cons c s ih =>
    have other : c ≠ quote := fun same => absent (same ▸ List.mem_cons_self)
    rw [List.cons_append, splitAtBrace, if_neg other, ih fun mem => absent (List.mem_cons_of_mem c mem),
      Option.map_map]
    rfl

theorem passes_quoted {quote : Char} (isQuote : quote = '\'' ∨ quote = '"') {s : List Char} (absent : quote ∉ s) :
    Passes (quote :: (s ++ [quote])) := by
  intro rest
  have open' : quote ≠ '\x7d' ∧ Folio.isQuote quote = true := by obtain rfl | rfl := isQuote <;> decide
  rw [List.cons_append, splitAtBrace, if_neg open'.1, if_pos open'.2, List.append_assoc, List.singleton_append,
    splitAtBrace_quoted absent, Option.map_map]
  congr 1
  funext found
  simp [putFirst]

/-! ## Text that stands in braces as it is -/

/-- Text on one line that leaves no quote open and begins like no short form and no brace. -/
structure Inner (s : List Char) : Prop where
  passes : Passes s
  oneLine : '\n' ∉ s
  first : ∀ c ∈ s.head?, isBlank c = false ∧ c ≠ '\x7b'
  last : ∀ c ∈ s.getLast?, isBlank c = false
  noSlash : s ≠ ['/']
  noWord : s.take loopWord.length ≠ loopWord

theorem Inner.expressionText {s : List Char} (inner : Inner s) : expressionText s = s := by
  have trimmed : Text.trimChars s = s := by
    rw [Text.trimChars, Text.trimStartChars_eq_self fun c mem => (inner.first c mem).1,
      Text.trimEndChars_eq_self inner.last]
  simp only [Template.expressionText, trimmed, if_neg inner.noSlash, if_neg inner.noWord]

/-- The word of a loop holds a colon and an `f`. -/
theorem take_loopWord_ne {s : List Char} (apart : ':' ∉ s ∨ 'f' ∉ s) : s.take loopWord.length ≠ loopWord := by
  intro same
  have marks : ':' ∈ loopWord ∧ 'f' ∈ loopWord := by decide
  rw [← same] at marks
  obtain noColon | noLetter := apart
  · exact noColon (List.mem_of_mem_take marks.1)
  · exact noLetter (List.mem_of_mem_take marks.2)

/-- Such text is taken in as what it is read as. -/
theorem Inner.step {e : Expr} {s : List Char} (inner : Inner s) (read : Expr.parse .list (String.ofList s) = .ok e)
    (b : Builder) (line : ℕ) : b.step (.substitution line s) = b.add line e := by
  rw [Builder.step, inner.expressionText, read]

theorem inner_of_plain {s : List Char} (plain : ∀ c ∈ s, Plain c) (noSlash : '/' ∉ s)
    (apart : ':' ∉ s ∨ 'f' ∉ s) : Inner s where
  passes := passes_of_plain plain
  oneLine mem := by
    have shown := (plain _ mem).shown
    contradiction
  first c mem := ⟨(plain c (List.mem_of_mem_head? mem)).shown, (plain c (List.mem_of_mem_head? mem)).noOpen⟩
  last c mem := (plain c (List.mem_of_mem_getLast? mem)).shown
  noSlash same := noSlash (by simp [same])
  noWord := take_loopWord_ne apart

/-- Text between two marks, such as quotes or brackets, that are neither blank nor brace. -/
theorem inner_of_marks {first last : Char} {s : List Char} (passes : Passes (first :: (s ++ [last])))
    (oneLine : '\n' ∉ s) (opens : isBlank first = false ∧ first ≠ '\x7b' ∧ first ≠ 'f')
    (closes : isBlank last = false) : Inner (first :: (s ++ [last])) where
  passes := passes
  oneLine mem := by
    simp only [List.mem_cons, List.mem_append, List.not_mem_nil, or_false] at mem
    obtain rfl | mem | rfl := mem
    · exact nomatch opens.1
    · exact oneLine mem
    · exact nomatch closes
  first c mem := by
    obtain rfl := Option.some_inj.1 mem
    exact ⟨opens.1, opens.2.1⟩
  last c mem := by
    rw [← List.cons_append, List.getLast?_concat] at mem
    obtain rfl := Option.some_inj.1 mem
    exact closes
  noSlash same := by simp at same
  noWord same := by
    -- The first mark is none that the word begins with.
    have word : loopWord = 'f' :: "oreach:".toList := by decide
    rw [word, List.length_cons, List.take_succ_cons] at same
    exact opens.2.2 (List.cons.inj same).1

end Template

open Template

theorem inner_of_figures {s : List Char} (figures : ∀ c ∈ s, IsFigure c) : Inner s := by
  refine inner_of_plain (fun c mem => plain_of_isFigure (figures c mem)) (fun mem => ?_) (.inr fun mem => ?_)
  · have figure := figures _ mem
    simp [IsFigure] at figure
  · have figure := figures _ mem
    simp [IsFigure] at figure

/-- Neither a slash nor a colon stands in a name. -/
theorem notMem_identifier {s : List Char} (shown : isIdentifier s = true) : '/' ∉ s ∧ ':' ∉ s := by
  cases s with
  | nil => simp
  | cons first rest =>
    simp only [isIdentifier, Bool.and_eq_true, List.all_eq_true] at shown
    have start : ['/', ':'].any (fun c => isAlphabetic c || c == '_') = false := by decide +kernel
    have later : ['/', ':'].any (fun c => isAlphanumeric c || c == '_' || c == '.') = false := by decide +kernel
    have absent : ∀ c ∈ ['/', ':'], c ∉ first :: rest := by
      intro c mark mem
      obtain rfl | mem := List.mem_cons.1 mem
      · exact List.any_eq_false.1 start c mark shown.1
      · exact List.any_eq_false.1 later c mark (shown.2 c mem)
    exact ⟨absent _ (by simp), absent _ (by simp)⟩

theorem passes_joined {separator : Char} (noClose : separator ≠ '\x7d') (noQuote : isQuote separator = false)
    {es : List Expr} (each : ∀ e ∈ es, Inner e.text.toList) : Passes (joinedText separator es) := by
  fun_induction joinedText separator es with
  | case1 => exact passes_nil
  | case2 e => exact (each e (by simp)).passes
  | case3 e f es ih =>
    obtain ⟨first, others⟩ := List.forall_mem_cons.1 each
    exact first.passes.append ((passes_char noClose noQuote).append (ih others))

theorem oneLine_joined {separator : Char} (shown : separator ≠ '\n') {es : List Expr}
    (each : ∀ e ∈ es, Inner e.text.toList) : '\n' ∉ joinedText separator es := by
  fun_induction joinedText separator es with
  | case1 => simp
  | case2 e => exact (each e (by simp)).oneLine
  | case3 e f es ih =>
    obtain ⟨first, others⟩ := List.forall_mem_cons.1 each
    simp only [List.mem_append, List.mem_cons, not_or]
    exact ⟨first.oneLine, shown.symm, ih others⟩

theorem inner_bracket (b : Bracket) {es : List Expr} (each : ∀ e ∈ es, Inner e.text.toList) :
    Inner (b.termsText es) := by
  have marks : b.opener ≠ '\x7d' ∧ isQuote b.opener = false ∧ b.closer ≠ '\x7d' ∧ isQuote b.closer = false ∧
      b.separator ≠ '\x7d' ∧ isQuote b.separator = false := by cases b <;> decide
  obtain ⟨openBrace, openQuote, closeBrace, closeQuote, sepBrace, sepQuote⟩ := marks
  refine inner_of_marks ?_ (oneLine_joined (by cases b <;> decide) each) (by cases b <;> decide)
    (by cases b <;> decide)
  exact (passes_char openBrace openQuote).append
    ((passes_joined sepBrace sepQuote each).append (passes_char closeBrace closeQuote))

/-- The text of a printable expression stands in braces as it is. -/
theorem Printable.inner {e : Expr} (printable : Printable e) : Inner e.text.toList := by
  induction printable with
  | bool b =>
    have bare := (Leaf.bool b).bare (by simp)
    exact inner_of_plain bare.plain (by cases b <;> decide) (.inl (by cases b <;> decide))
  | int i => exact inner_of_figures fun _ mem => isFigure_toString mem
  | float number finite => exact inner_of_figures fun _ mem => isFigure_write number finite mem
  | date written least most => exact inner_of_figures fun _ mem => isFigure_date mem
  | @str s oneLine oneQuote =>
    obtain ⟨quote, isQuote, text, mem⟩ := quotedText_toList s
    show Inner (quotedText s).toList
    rw [text]
    refine inner_of_marks (passes_quoted isQuote fun both => oneQuote (mem.1 both)) oneLine ?_ ?_
    · obtain rfl | rfl := isQuote <;> decide
    · obtain rfl | rfl := isQuote <;> decide
  | name shown noTrue noFalse =>
    obtain ⟨noSlash, noColon⟩ := notMem_identifier shown
    exact inner_of_plain (plain_of_isIdentifier shown) noSlash (.inl noColon)
  | array parts ih =>
    rw [text_array]
    exact inner_bracket .square ih
  | apply head present parts headInner ih =>
    rw [text_apply]
    exact inner_bracket .round (List.forall_mem_cons.2 ⟨headInner, ih⟩)

theorem Printable.parse_text {e : Expr} (printable : Printable e) : Expr.parse .list e.text = .ok e :=
  printable.parsed.parse_text printable.kept

end Folio
