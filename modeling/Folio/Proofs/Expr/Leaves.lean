import Folio.Proofs.Expr.Literal

/-!
# The leaves of an expression

The parts of an expression that have no parts themselves, from left to right.  Two
expressions that are the same have the same leaves, and while a text is read its leaves
are collected in the order of the text: those read so far are never given up again.
-/

namespace Folio

mutual

/-- The literals and names of an expression, from left to right. -/
def Expr.leaves : Expr → List Expr
  | .value v => [.value v]
  | .variable name => [.variable name]
  | .array items => exprLeaves items
  | .apply function args => function.leaves ++ exprLeaves args
termination_by structural e => e

/-- The leaves of the expressions one after the other. -/
def exprLeaves : List Expr → List Expr
  | [] => []
  | e :: es => e.leaves ++ exprLeaves es
termination_by structural es => es

end

theorem exprLeaves_append (es fs : List Expr) : exprLeaves (es ++ fs) = exprLeaves es ++ exprLeaves fs := by
  induction es with
  | nil => rfl
  | cons e es ih => simp only [List.cons_append, exprLeaves, ih, List.append_assoc]

theorem exprLeaves_singleton (e : Expr) : exprLeaves [e] = e.leaves := by
  simp [exprLeaves]

mutual

/-- The same expressions have the same leaves. -/
theorem same_leaves : ∀ a b : Expr, a.same b = true →
    List.Forall₂ (fun x y : Expr => x.same y = true) a.leaves b.leaves
  | .value v, .value w, same => .cons same .nil
  | .variable a, .variable b, same => .cons same .nil
  | .array as, .array bs, same => same_exprLeaves as bs same
  | .apply f as, .apply g bs, same => by
    simp only [Expr.same, Bool.and_eq_true] at same
    exact List.rel_append (same_leaves f g same.1) (same_exprLeaves as bs same.2)
  | .value _, .variable _, same | .value _, .array _, same | .value _, .apply _ _, same => nomatch same
  | .variable _, .value _, same | .variable _, .array _, same | .variable _, .apply _ _, same => nomatch same
  | .array _, .value _, same | .array _, .variable _, same | .array _, .apply _ _, same => nomatch same
  | .apply _ _, .value _, same | .apply _ _, .variable _, same | .apply _ _, .array _, same => nomatch same
termination_by structural a => a

theorem same_exprLeaves : ∀ as bs : List Expr, sameExprs as bs = true →
    List.Forall₂ (fun x y : Expr => x.same y = true) (exprLeaves as) (exprLeaves bs)
  | [], [], _ => .nil
  | a :: as, b :: bs, same => by
    simp only [sameExprs, Bool.and_eq_true] at same
    exact List.rel_append (same_leaves a b same.1) (same_exprLeaves as bs same.2)
  | [], _ :: _, same => nomatch same
  | _ :: _, [], same => nomatch same
termination_by structural as => as

end

/-! ## Expressions that can be read -/

/-- The expressions that reading yields. -/
inductive Parsed : Expr → Prop where
  | leaf {e : Expr} (leaf : Leaf e) : Parsed e
  | array {items : List Expr} (parts : ∀ e ∈ items, Parsed e) : Parsed (.array items)
  | apply {function : Expr} {args : List Expr} (head : Parsed function) (present : args ≠ [])
      (parts : ∀ e ∈ args, Parsed e) : Parsed (.apply function args)

theorem sameExprs_self {es : List Expr} (each : ∀ e ∈ es, e.same e = true) : sameExprs es es = true := by
  induction es with
  | nil => rfl
  | cons e es ih =>
    simp only [sameExprs, Bool.and_eq_true]
    exact ⟨each e (by simp), ih fun f mem => each f (List.mem_cons_of_mem e mem)⟩

/-- What is read is the same as itself: no literal is a NaN. -/
theorem Parsed.same_self {e : Expr} (parsed : Parsed e) : e.same e = true := by
  induction parsed with
  | leaf leaf =>
    cases leaf with
    | bool b => simp [Expr.same, Value.same]
    | int i => simp [Expr.same, Value.same]
    | float number => exact number.beq_self
    | str s => simp [Expr.same, Value.same]
    | date written => simp [Expr.same, Value.same, Calendar.Timestamp.sameMoment]
    | name shown classified => simp [Expr.same]
  | array parts ih => exact sameExprs_self ih
  | apply head present parts headSame ih =>
    simp only [Expr.same, Bool.and_eq_true]
    exact ⟨headSame, sameExprs_self ih⟩

/-! ## Closing a bracket -/

theorem Bracket.close_leaves {b : Bracket} {terms : List Expr} {e : Expr} (closed : b.close terms = .ok e) :
    e.leaves = exprLeaves terms := by
  cases b with
  | square =>
    cases closed
    rfl
  | round =>
    simp only [Bracket.close] at closed
    unfold applyTerms at closed
    split at closed
    · contradiction
    · cases closed
      exact (exprLeaves_singleton _).symm
    · cases closed
      rfl

theorem parsed_applyTerms {terms : List Expr} {e : Expr} (each : ∀ t ∈ terms, Parsed t)
    (applied : applyTerms terms = .ok e) : Parsed e := by
  unfold applyTerms at applied
  split at applied
  · contradiction
  · cases applied
    exact each _ (by simp)
  · rename_i function args single
    cases applied
    refine .apply (each _ (by simp)) ?_ fun arg mem => each arg (List.mem_cons_of_mem _ mem)
    rintro rfl
    exact single rfl

theorem Bracket.parsed_close {b : Bracket} {terms : List Expr} {e : Expr} (each : ∀ t ∈ terms, Parsed t)
    (closed : b.close terms = .ok e) : Parsed e := by
  cases b with
  | square =>
    cases closed
    exact .array each
  | round => exact parsed_applyTerms each closed

theorem ExprForm.parsed_close {form : ExprForm} {terms : List Expr} {e : Expr} (each : ∀ t ∈ terms, Parsed t)
    (closed : form.close terms = .ok e) : Parsed e := by
  unfold ExprForm.close at closed
  split at closed
  · contradiction
  · exact parsed_applyTerms each closed
  · cases closed
    exact each _ (by simp)
  · cases closed
    exact .array each
  · cases closed
    exact each _ (by simp)
  · cases closed
    exact .array each
  · cases closed
    exact each _ (by simp)
  · cases closed
    exact each _ (by simp)
  · contradiction
  · contradiction

/-! ## What a scan keeps -/

def readSoFar (terms : List Expr) : List OpenBracket → List Expr
  | [] => exprLeaves terms.reverse
  | o :: around => readSoFar o.before around ++ exprLeaves terms.reverse

theorem readSoFar_cons (e : Expr) (terms : List Expr) (opened : List OpenBracket) :
    readSoFar (e :: terms) opened = readSoFar terms opened ++ e.leaves := by
  cases opened with
  | nil => simp [readSoFar, exprLeaves_append, exprLeaves_singleton]
  | cons o around => simp [readSoFar, exprLeaves_append, exprLeaves_singleton]

theorem readSoFar_open (b : Bracket) (terms : List Expr) (opened : List OpenBracket) :
    readSoFar [] (⟨b, terms⟩ :: opened) = readSoFar terms opened := by
  simp [readSoFar, exprLeaves]

/-- A property of what has been read that every step of a scan keeps. -/
structure ScanInvariant (holds : List Expr → List OpenBracket → Prop) : Prop where
  leaf : ∀ {e terms opened}, Leaf e → holds terms opened → holds (e :: terms) opened
  opening : ∀ {b terms opened}, holds terms opened → holds [] (⟨b, terms⟩ :: opened)
  closing : ∀ {b e terms before around}, b.close terms.reverse = .ok e →
    holds terms (⟨b, before⟩ :: around) → holds (e :: before) around

theorem scan_invariant {holds : List Expr → List OpenBracket → Prop} (keeps : ScanInvariant holds)
    {outer : ExprForm} {terms : List Expr} {opened : List OpenBracket} {s : List Char} {r : List Expr}
    (start : holds terms opened) (read : scan outer terms opened s = .ok r) : holds r.reverse [] := by
  fun_induction scan outer terms opened s with
  | case1 terms opened closed =>
    cases read
    rw [List.isEmpty_iff.1 closed] at start
    rwa [List.reverse_reverse]
  | case3 terms opened c cs idle ih => exact ih start read
  | case5 terms opened c cs _ _ literal rest found _ ih => exact ih (keeps.leaf (.str _) start) read
  | case6 terms opened cs _ _ ih => exact ih (keeps.opening start) read
  | case7 terms opened cs _ _ _ ih => exact ih (keeps.opening start) read
  | case8 terms cs bracket before around e closed _ _ _ _ _ ih =>
    simp only [List.unattach_reverse, List.unattach_attach] at closed
    rw [closed] at read
    exact ih (keeps.closing closed start) read
  | case9 terms cs bracket before around fault closed =>
    simp only [List.unattach_reverse, List.unattach_attach] at closed
    rw [closed] at read
    contradiction
  | case12 terms opened c cs _ _ _ _ _ _ ih => exact ih (keeps.leaf (leaf_classify _) start) read
  -- Open brackets at the end, open quotes and brackets that do not match are faults.
  | case2 | case4 | case10 | case11 => contradiction

/-- What is read has been parsed. -/
theorem parsed_of_scan {outer : ExprForm} {s : List Char} {r : List Expr} (read : scan outer [] [] s = .ok r) :
    ∀ e ∈ r, Parsed e := by
  have keeps : ScanInvariant fun terms opened =>
      (∀ e ∈ terms, Parsed e) ∧ ∀ o ∈ opened, ∀ e ∈ o.before, Parsed e := by
    refine ⟨?_, ?_, ?_⟩
    · intro e terms opened leaf ⟨here, around⟩
      exact ⟨List.forall_mem_cons.2 ⟨.leaf leaf, here⟩, around⟩
    · intro b terms opened ⟨here, around⟩
      exact ⟨by simp, List.forall_mem_cons.2 ⟨here, around⟩⟩
    · intro b e terms before around closed ⟨here, outside⟩
      obtain ⟨next, outside⟩ := List.forall_mem_cons.1 outside
      have parsed := Bracket.parsed_close (fun t mem => here t (List.mem_reverse.1 mem)) closed
      exact ⟨List.forall_mem_cons.2 ⟨parsed, next⟩, outside⟩
  intro e mem
  exact (scan_invariant keeps ⟨by simp, by simp⟩ read).1 e (List.mem_reverse.2 mem)

/-- Leaves that have been read stay where they are. -/
theorem readSoFar_prefix {outer : ExprForm} {terms : List Expr} {opened : List OpenBracket} {s : List Char}
    {r : List Expr} (read : scan outer terms opened s = .ok r) : readSoFar terms opened <+: exprLeaves r := by
  have keeps : ScanInvariant fun now around => readSoFar terms opened <+: readSoFar now around := by
    refine ⟨?_, ?_, ?_⟩
    · intro e now around leaf before
      rw [readSoFar_cons]
      exact before.trans (List.prefix_append _ _)
    · intro b now around before
      rwa [readSoFar_open]
    · intro b e now back around closed before
      rw [readSoFar_cons, Bracket.close_leaves closed]
      exact before
  have final := scan_invariant keeps (List.prefix_refl _) read
  rwa [readSoFar, List.reverse_reverse] at final

/-- Every expression that is parsed is one that reading yields. -/
theorem parsed_of_parse {form : ExprForm} {text : String} {e : Expr} (read : Expr.parse form text = .ok e) :
    Parsed e := by
  simp only [Expr.parse, ExprForm.read] at read
  cases scanned : scan form [] [] text.toList with
  | error fault =>
    rw [scanned] at read
    contradiction
  | ok terms =>
    rw [scanned] at read
    simp only at read
    split at read
    · rename_i closed
      cases read
      exact ExprForm.parsed_close (parsed_of_scan scanned) closed
    · contradiction

end Folio
