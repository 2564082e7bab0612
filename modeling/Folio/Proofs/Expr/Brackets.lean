import Folio.Expr.Keyword
import Folio.Proofs.Expr.Grammar

/-!
# Brackets around a text

Square brackets around the items of an array, and round ones around an expression, may be left out.
Only where an array is the one item already, in brackets of its own, do brackets around it count: they
make an array of that array.  The round brackets that such an item may stand in do not show in it.

Main statement: `brackets_optional`.
-/

namespace Folio

open Text (isBlank isBlankText)

variable {form : ExprForm} {s : List Char} {items terms : List Expr} {e : Expr}

/-! ## An array alone -/

/-- The text is an array in square brackets, or such a text in round brackets, and nothing else but
what is skipped between terms. -/
inductive LoneArray : ExprForm → List Char → List Expr → Prop where
  | square {form : ExprForm} {inner after : List Char} {items : List Expr} (inside : Terms .array inner items)
      (nothing : ∀ c ∈ after, form.isIdle c = true) : LoneArray form ('[' :: (inner ++ ']' :: after)) items
  | round {form : ExprForm} {inner after : List Char} {items : List Expr} (inside : LoneArray .list inner items)
      (nothing : ∀ c ∈ after, form.isIdle c = true) : LoneArray form ('(' :: (inner ++ ')' :: after)) items
  | idle {form : ExprForm} {c : Char} {s : List Char} {items : List Expr} (idle : form.isIdle c = true)
      (alone : LoneArray form s items) : LoneArray form (c :: s) items

theorem terms_nil_iff : Terms form s [] ↔ ∀ c ∈ s, form.isIdle c = true := by
  constructor
  · intro text
    generalize none : ([] : List Expr) = terms at text
    induction text with
    | nil => simp
    | idle idle others ih => exact List.forall_mem_cons.2 ⟨idle, ih none⟩
    | quoted | bracket | token => contradiction
  · intro idle
    induction s with
    | nil => exact .nil
    | cons c s ih =>
      obtain ⟨first, others⟩ := List.forall_mem_cons.1 idle
      exact .idle first (ih others)

theorem LoneArray.isTerm (alone : LoneArray form s items) : Terms form s [.array items] := by
  induction alone with
  | square inside nothing => exact .bracket (b := .square) inside (.array _) (terms_nil_iff.2 nothing)
  | round inside nothing ih => exact .bracket (b := .round) ih (.alone _) (terms_nil_iff.2 nothing)
  | idle idle alone ih => exact .idle idle ih

theorem Terms.loneArray (text : Terms form s terms) : terms = [.array items] → LoneArray form s items := by
  induction text with
  | nil => intro same; contradiction
  | idle idle others ih => exact fun same => .idle idle (ih same)
  | quoted isQuote absent others ih =>
    intro same
    cases (List.cons.inj same).1
  | @bracket form b inner s parts es e inside yields others insideIH othersIH =>
    intro same
    obtain ⟨rfl, rfl⟩ := List.cons.inj same
    have nothing := terms_nil_iff.1 others
    cases yields with
    | array => exact .square inside nothing
    | alone => exact .round (insideIH rfl) nothing
  | token starts goesOn ends others ih =>
    intro same
    exact absurd (List.cons.inj same).1 (classify_ne_array _ _)

/-- The only term of a text is an array exactly if the array stands alone in it. -/
theorem loneArray_iff : Terms form s [.array items] ↔ LoneArray form s items :=
  ⟨fun text => text.loneArray rfl, LoneArray.isTerm⟩

/-! ## One more bracket -/

def Bracket.around (b : Bracket) (text : String) : String :=
  String.singleton b.opener ++ text ++ String.singleton b.closer

theorem Bracket.toList_around (b : Bracket) (text : String) :
    (b.around text).toList = b.opener :: (text.toList ++ [b.closer]) := by
  simp [around]

/-- In brackets a text is one term, whatever stands around it. -/
theorem Bracket.terms_around (b : Bracket) {text : String} (inside : Terms b.form text.toList terms)
    (yields : b.Yields terms e) (form : ExprForm) : Terms form (b.around text).toList [e] := by
  rw [toList_around]
  exact .bracket inside yields .nil

theorem parse_iff_grammatical {text : String} : Expr.parse form text = .ok e ↔ Grammatical form text.toList e := by
  rw [← read_eq_ok_iff, Expr.parse]
  cases form.read text.toList <;> simp

/-- A text is cut into terms in one way only. -/
theorem Terms.unique {others : List Expr} (text : Terms form s terms) (again : Terms form s others) : terms = others := by
  rw [← scan_eq_ok_iff] at text again
  exact Except.ok.inj (text.symm.trans again)

theorem not_isBlankText {text : String} (read : Expr.parse .array text = .ok e) : isBlankText text = false := by
  rw [Bool.eq_false_iff]
  intro blank
  obtain ⟨terms, cut, yields⟩ := parse_iff_grammatical.1 read
  have nothing : Terms .array text.toList [] :=
    terms_nil_iff.2 fun c mem => by simp [ExprForm.isIdle, List.all_eq_true.1 blank c mem]
  obtain rfl := cut.unique nothing
  cases yields with
  | array present other => contradiction

/-- Fields that are lists of names depend only on the array that their text is read as. -/
theorem parseField_congr {text other key : String} (list : key = "tags" ∨ key = "category")
    (read : Expr.parse .array text = .ok e) (same : Expr.parse .array other = .ok e) :
    Expr.parseField key text = Expr.parseField key other := by
  have items : parseItems text = parseItems other := by rw [parseItems, parseItems, read, same]
  have shown : isBlankText text = isBlankText other := by rw [not_isBlankText read, not_isBlankText same]
  obtain rfl | rfl := list
  · rw [Expr.parseField, if_pos rfl, Expr.parseField, if_pos rfl, shown, items]
  · have noTags : "category" ≠ "tags" := by decide
    rw [Expr.parseField, if_neg noTags, if_pos rfl, Expr.parseField, if_neg noTags, if_pos rfl, shown, items]

/-! ## Main statement -/

/-- An array is read from its items as from its items in square brackets, and so are the fields that
list names; only if the items are one array alone, the brackets make an array of it.  An expression is
read as it is read in round brackets. -/
theorem brackets_optional (text : String) (e : Expr) :
    (Expr.parse .array text = .ok e →
      ((∀ items, ¬ LoneArray .array text.toList items) →
        Expr.parse .array (Bracket.square.around text) = .ok e ∧
          Expr.parseField "tags" (Bracket.square.around text) = Expr.parseField "tags" text ∧
          Expr.parseField "category" (Bracket.square.around text) = Expr.parseField "category" text) ∧
      ((∃ items, LoneArray .array text.toList items) →
        Expr.parse .array (Bracket.square.around text) = .ok (.array [e]))) ∧
    (Expr.parse .list text = .ok e → Expr.parse .list (Bracket.round.around text) = .ok e) := by
  refine ⟨fun read => ?_, fun read => ?_⟩
  · obtain ⟨terms, cut, yields⟩ := parse_iff_grammatical.1 read
    have bracketed : Expr.parse .array (Bracket.square.around text) = .ok (.array terms) :=
      parse_iff_grammatical.2 ⟨_, Bracket.square.terms_around cut (.array terms) .array, .sameArray terms⟩
    cases yields with
    | sameArray items =>
      refine ⟨fun several => absurd (loneArray_iff.1 cut) (several items), fun _ => bracketed⟩
    | array present other =>
      refine ⟨fun _ => ⟨bracketed, ?_, ?_⟩, fun alone => ?_⟩
      · exact parseField_congr (.inl rfl) bracketed read
      · exact parseField_congr (.inr rfl) bracketed read
      · obtain ⟨items, alone⟩ := alone
        exact absurd (cut.unique alone.isTerm) (other items)
  · obtain ⟨terms, cut, yields⟩ := parse_iff_grammatical.1 read
    cases yields with
    | list yields => exact parse_iff_grammatical.2 ⟨_, Bracket.round.terms_around cut yields .list, .list (.alone e)⟩

theorem brackets_optional_names :
    (Expr.parse .array "b, 'c d'" = .ok (.array [.variable "b", .value (.str "c d")]) ∧
      Expr.parse .array (Bracket.square.around "b, 'c d'") = .ok (.array [.variable "b", .value (.str "c d")])) ∧
    Expr.parse .list "f 'x'" = .ok (.apply (.variable "f") [.value (.str "x")]) ∧
      Expr.parse .list (Bracket.round.around "f 'x'") = .ok (.apply (.variable "f") [.value (.str "x")]) := by
  have scanned : scan .array [] [] "b, 'c d'".toList = .ok [.variable "b", .value (.str "c d")] := by cbv
  have cut := scan_eq_ok_iff.1 scanned
  have read : Expr.parse .array "b, 'c d'" = .ok (.array [.variable "b", .value (.str "c d")]) :=
    parse_iff_grammatical.2 ⟨_, cut, .array (by simp) (by simp)⟩
  have several : ∀ items, ¬ LoneArray .array "b, 'c d'".toList items := by
    intro items alone
    have single := cut.unique alone.isTerm
    simp at single
  have applied : Expr.parse .list "f 'x'" = .ok (.apply (.variable "f") [.value (.str "x")]) := by cbv
  exact ⟨⟨read, (((brackets_optional _ _).1 read).1 several).1⟩, applied, (brackets_optional _ _).2 applied⟩

/-- Round brackets hide an array from the square brackets around it: without these it is read as
itself, with them as an array that holds it. -/
theorem brackets_around_hidden_array :
    Expr.parse .array "([a])" = .ok (.array [.variable "a"]) ∧ "([a])".toList.head? = some '(' ∧
      Expr.parse .array (Bracket.square.around "([a])") = .ok (.array [.array [.variable "a"]]) :=
  ⟨by cbv, by decide, by cbv⟩

end Folio
