import Folio.Proofs.Expr.RoundTrip

/-!
# The grammar of expressions

What a text of each form is, said without a stack: terms one after the other, and brackets
that hold terms again.  The scan reads exactly these texts, to what the grammar says they
stand for.

One direction follows the derivation of a text, with any text after it.  The other goes
backwards along the scan: what the open brackets still demand of the text is `Completes`.

Main statement: `parse_eq_ok_iff`.
-/

namespace Folio

open Text (isBlank trimChars trimEndChars)

/-! ## The grammar -/

/-- What the terms in a bracket stand for. -/
inductive Bracket.Yields : Bracket → List Expr → Expr → Prop where
  | alone (e : Expr) : Yields .round [e] e
  | apply (function : Expr) {args : List Expr} (present : args ≠ []) :
      Yields .round (function :: args) (.apply function args)
  | array (items : List Expr) : Yields .square items (.array items)

/-- The texts that consist of terms of a form, and the terms.  A bare token goes on as far
as it can. -/
inductive Terms : ExprForm → List Char → List Expr → Prop where
  | nil {form : ExprForm} : Terms form [] []
  | idle {form : ExprForm} {c : Char} {s : List Char} {es : List Expr} (idle : form.isIdle c = true)
      (others : Terms form s es) : Terms form (c :: s) es
  | quoted {form : ExprForm} {quote : Char} {literal s : List Char} {es : List Expr}
      (isQuote : quote = '\'' ∨ quote = '"') (absent : quote ∉ literal) (others : Terms form s es) :
      Terms form (quote :: (literal ++ quote :: s)) (.value (.str (String.ofList literal)) :: es)
  | bracket {form : ExprForm} {b : Bracket} {inner s : List Char} {parts es : List Expr} {e : Expr}
      (inside : Terms b.form inner parts) (yields : b.Yields parts e) (others : Terms form s es) :
      Terms form (b.opener :: (inner ++ b.closer :: s)) (e :: es)
  | token {form : ExprForm} {c : Char} {more s : List Char} {es : List Expr} (starts : StartsToken form c)
      (goesOn : ∀ d ∈ more, form.isTerminator d = false) (ends : Ends form s) (others : Terms form s es) :
      Terms form (c :: (more ++ s)) (classify (trimChars (c :: more)) :: es)

/-- What the terms of a whole text stand for. -/
inductive ExprForm.Yields : ExprForm → List Expr → Expr → Prop where
  | list {terms : List Expr} {e : Expr} (yields : Bracket.round.Yields terms e) : Yields .list terms e
  | sameArray (items : List Expr) : Yields .array [.array items] (.array items)
  | array {terms : List Expr} (present : terms ≠ []) (other : ∀ items, terms ≠ [.array items]) :
      Yields .array terms (.array terms)
  | laxAlone (e : Expr) : Yields .laxArray [e] e
  | laxArray {terms : List Expr} (several : 2 ≤ terms.length) : Yields .laxArray terms (.array terms)
  | single (e : Expr) : Yields .single [e] e
  | line (e : Expr) : Yields .line [e] e

/-- The text is one of the form and stands for the expression. -/
def Grammatical (form : ExprForm) (s : List Char) (e : Expr) : Prop :=
  ∃ terms, Terms form s terms ∧ form.Yields terms e

/-! ## Terms add up -/

theorem applyTerms_eq_ok {terms : List Expr} {e : Expr} :
    applyTerms terms = .ok e ↔ Bracket.round.Yields terms e := by
  constructor
  · intro applied
    cases terms with
    | nil => contradiction
    | cons function args =>
      cases args with
      | nil =>
        cases applied
        exact .alone e
      | cons arg args =>
        cases applied
        exact .apply function (by simp)
  · intro yields
    cases yields with
    | alone => rfl
    | @apply function args present =>
      cases args with
      | nil => contradiction
      | cons arg args => rfl

theorem Bracket.close_eq_ok {b : Bracket} {terms : List Expr} {e : Expr} :
    b.close terms = .ok e ↔ b.Yields terms e := by
  cases b with
  | round => exact applyTerms_eq_ok
  | square =>
    constructor
    · intro closed
      cases closed
      exact .array terms
    · intro yields
      cases yields
      rfl

theorem ExprForm.close_array {terms : List Expr} (present : terms ≠ [])
    (other : ∀ items, terms ≠ [.array items]) : ExprForm.array.close terms = .ok (.array terms) := by
  unfold ExprForm.close
  split <;> simp_all

theorem classify_ne_array (token : List Char) (items : List Expr) : classify token ≠ .array items := by
  intro same
  have leaf := leaf_classify token
  rw [same] at leaf
  cases leaf

theorem ExprForm.close_laxArray {terms : List Expr} (several : 2 ≤ terms.length) :
    ExprForm.laxArray.close terms = .ok (.array terms) := by
  unfold ExprForm.close
  split <;> simp_all

theorem ExprForm.close_eq_ok {form : ExprForm} {terms : List Expr} {e : Expr} :
    form.close terms = .ok e ↔ form.Yields terms e := by
  constructor
  · intro closed
    cases terms with
    | nil => contradiction
    | cons first others =>
      cases form with
      | list => exact .list (applyTerms_eq_ok.1 closed)
      | array =>
        -- An array alone is not put into another one.
        by_cases same : ∃ items, first :: others = [.array items]
        · obtain ⟨items, same⟩ := same
          rw [same] at closed ⊢
          cases closed
          exact .sameArray items
        · have other : ∀ items, first :: others ≠ [.array items] := fun items is => same ⟨items, is⟩
          rw [close_array (by simp) other] at closed
          cases closed
          exact .array (by simp) other
      | laxArray =>
        cases others with
        | nil =>
          cases closed
          exact .laxAlone e
        | cons second others =>
          cases closed
          exact .laxArray (by simp)
      | single =>
        cases others with
        | nil =>
          cases closed
          exact .single e
        | cons second others => contradiction
      | line =>
        cases others with
        | nil =>
          cases closed
          exact .line e
        | cons second others => contradiction
  · intro yields
    cases yields with
    | list yields =>
      have applied := applyTerms_eq_ok.2 yields
      cases yields with
      | alone => exact applied
      | apply => exact applied
    | sameArray => rfl
    | array present other => exact close_array present other
    | laxAlone => rfl
    | laxArray several => exact close_laxArray several
    | single => rfl
    | line => rfl

/-! ## Texts of the grammar are read -/

variable {outer form : ExprForm} {terms : List Expr} {opened : List OpenBracket}

theorem trimChars_token {c : Char} (starts : StartsToken form c) (more : List Char) :
    trimChars (c :: more) = trimEndChars (c :: more) := by
  have shown : isBlank c = false := by
    have noIdle := starts.noIdle
    cases form <;> simp_all [ExprForm.isIdle]
  rw [trimChars, Text.trimStartChars_cons shown]

/-- What follows the terms of a frame does not go on with its last token. -/
theorem Ends.append {s rest : List Char} (here : Ends form s) (after : Ends form rest) : Ends form (s ++ rest) := by
  cases s with
  | nil => exact after
  | cons c s => exact here

/-- The terms of a text are added to those read before, whatever ends the text. -/
theorem Terms.scan {s : List Char} {es : List Expr} (text : Terms form s es) :
    ∀ (terms : List Expr) (opened : List OpenBracket) (rest : List Char), currentForm outer opened = form →
      Ends form rest → scan outer terms opened (s ++ rest) = Folio.scan outer (es.reverse ++ terms) opened rest := by
  induction text with
  | nil => exact fun terms opened rest _ _ => rfl
  | idle idle others ih =>
    intro terms opened rest here after
    rw [List.cons_append, scan_idle outer opened (by rw [here, idle]), ih terms opened rest here after]
  | quoted isQuote absent others ih =>
    intro terms opened rest here after
    rw [List.cons_append, List.append_assoc, List.cons_append, scan_quote isQuote (splitAtQuote_append absent _),
      ih _ opened rest here after]
    simp
  | @bracket form b inner s parts es e inside yields others insideRead ih =>
    intro terms opened rest here after
    -- The terms inside are read in a frame of their own, which ends at the closing bracket.
    have ends : Ends (currentForm outer (⟨b, terms⟩ :: opened)) (b.closer :: (s ++ rest)) := ends_closer b terms _
    have closed : b.close (parts.reverse ++ []).reverse = .ok e := by
      simpa using Bracket.close_eq_ok.2 yields
    rw [List.cons_append, List.append_assoc, List.cons_append, scan_open,
      insideRead [] (⟨b, terms⟩ :: opened) _ rfl ends, scan_close closed, ih _ opened rest here after]
    simp
  | @token form c more s es starts goesOn ends others ih =>
    intro terms opened rest here after
    subst here
    rw [List.cons_append, List.append_assoc, scan_token starts (by simpa [ExprForm.continues] using goesOn)
      (ends.append after), ih _ opened rest rfl after, trimChars_token starts]
    simp

/-! ## What is read is a text of the grammar -/

/-- The text completes the open brackets: each is closed after some more terms, the
outermost terms go on to the end of the text, and `all` are these terms at the end. -/
def Completes (outer : ExprForm) (terms : List Expr) : List OpenBracket → List Char → List Expr → Prop
  | [], s, all => ∃ es, Terms outer s es ∧ all = terms.reverse ++ es
  | ⟨b, before⟩ :: around, s, all =>
    ∃ inner rest es e, s = inner ++ b.closer :: rest ∧ Terms b.form inner es ∧
      b.Yields (terms.reverse ++ es) e ∧ Completes outer (e :: before) around rest all

/-- A piece of text that may stand before terms of the current form, and gives the new terms,
may stand before what completes the brackets. -/
theorem Completes.prepend (piece : List Char) {s : List Char} (new : List Expr) {all : List Expr}
    (piece_terms : ∀ front es, front <+: s → Terms (currentForm outer opened) front es →
      Terms (currentForm outer opened) (piece ++ front) (new ++ es))
    (completes : Completes outer (new.reverse ++ terms) opened s all) :
    Completes outer terms opened (piece ++ s) all := by
  cases opened with
  | nil =>
    obtain ⟨es, text, rfl⟩ := completes
    exact ⟨new ++ es, piece_terms s es (List.prefix_refl s) text, by simp⟩
  | cons o around =>
    obtain ⟨inner, rest, es, e, rfl, inside, yields, outside⟩ := completes
    refine ⟨piece ++ inner, rest, new ++ es, e, by simp, ?_, by simpa using yields, outside⟩
    exact piece_terms inner es (List.prefix_append _ _) inside

theorem Completes.opening {b : Bracket} {s : List Char} {all : List Expr}
    (completes : Completes outer [] (⟨b, terms⟩ :: opened) s all) :
    Completes outer terms opened (b.opener :: s) all := by
  -- What was demanded of the bracket makes it one more term of the frame around it.
  obtain ⟨inner, rest, parts, e, rfl, inside, yields, outside⟩ := completes
  have split : b.opener :: (inner ++ b.closer :: rest) = (b.opener :: (inner ++ [b.closer])) ++ rest := by simp
  rw [split]
  refine Completes.prepend _ [e] (fun front es _ text => ?_) outside
  have again : (b.opener :: (inner ++ [b.closer])) ++ front = b.opener :: (inner ++ b.closer :: front) := by simp
  rw [again]
  exact .bracket inside yields text

theorem Completes.closing {b : Bracket} {before : List Expr} {e : Expr} {s : List Char} {all : List Expr}
    (closed : b.close terms.reverse = .ok e) (completes : Completes outer (e :: before) opened s all) :
    Completes outer terms (⟨b, before⟩ :: opened) (b.closer :: s) all :=
  ⟨[], s, [], e, rfl, .nil, by simpa using Bracket.close_eq_ok.1 closed, completes⟩

theorem splitAtQuote_eq_some {quote : Char} {s literal rest : List Char}
    (found : splitAtQuote quote s = some (literal, rest)) : s = literal ++ quote :: rest ∧ quote ∉ literal := by
  induction s generalizing literal with
  | nil => contradiction
  | cons c s ih =>
    rw [splitAtQuote] at found
    split_ifs at found with same
    · cases found
      simp [same]
    · obtain ⟨⟨front, back⟩, later, eq⟩ := Option.map_eq_some_iff.1 found
      cases eq
      obtain ⟨rfl, absent⟩ := ih later
      exact ⟨rfl, by simp [absent, Ne.symm same]⟩

theorem Completes.quoted {quote : Char} {s literal rest : List Char} {all : List Expr}
    (isQuote : isQuote quote = true) (found : splitAtQuote quote s = some (literal, rest))
    (completes : Completes outer (.value (.str (String.ofList literal)) :: terms) opened rest all) :
    Completes outer terms opened (quote :: s) all := by
  obtain ⟨rfl, absent⟩ := splitAtQuote_eq_some found
  have split : quote :: (literal ++ quote :: rest) = (quote :: (literal ++ [quote])) ++ rest := by simp
  rw [split]
  refine Completes.prepend _ [_] (fun front es _ text => ?_) completes
  have again : (quote :: (literal ++ [quote])) ++ front = quote :: (literal ++ quote :: front) := by simp
  rw [again]
  exact .quoted (by simpa [Folio.isQuote] using isQuote) absent text

theorem ends_dropWhile (form : ExprForm) (s : List Char) : Ends form (s.dropWhile form.continues) := by
  intro c first
  have stops := List.head?_dropWhile_not form.continues s
  rw [first] at stops
  simpa [ExprForm.continues] using stops

theorem Ends.front {s front : List Char} (ends : Ends form s) (isPrefix : front <+: s) : Ends form front := by
  obtain ⟨back, rfl⟩ := isPrefix
  intro c first
  cases front with
  | nil => contradiction
  | cons d front => exact ends c first

theorem Completes.token {c : Char} {s : List Char} {all : List Expr}
    (starts : StartsToken (currentForm outer opened) c)
    (completes : Completes outer
      (classify (trimEndChars (c :: s.takeWhile (currentForm outer opened).continues)) :: terms) opened
      (s.dropWhile (currentForm outer opened).continues) all) :
    Completes outer terms opened (c :: s) all := by
  have split : c :: s = (c :: s.takeWhile (currentForm outer opened).continues) ++
      s.dropWhile (currentForm outer opened).continues := by
    rw [List.cons_append, List.takeWhile_append_dropWhile]
  rw [← trimChars_token starts] at completes
  rw [split]
  refine Completes.prepend _ [_] (fun front es isPrefix text => ?_) completes
  -- What stops the token in the whole text stops it in any front of the text.
  refine .token starts (fun d mem => ?_) ((ends_dropWhile _ s).front isPrefix) text
  simpa [ExprForm.continues] using List.mem_takeWhile_imp mem

/-- What a scan has read completes the brackets that were open. -/
theorem completes_of_scan {s : List Char} {all : List Expr} (read : scan outer terms opened s = .ok all) :
    Completes outer terms opened s all := by
  fun_induction scan outer terms opened s with
  | case1 terms opened closed =>
    cases read
    rw [List.isEmpty_iff.1 closed]
    exact ⟨[], .nil, by simp⟩
  | case3 terms opened c cs idle ih =>
    exact Completes.prepend [c] [] (fun front es _ text => .idle idle text) (ih read)
  | case5 terms opened c cs _ isQuote literal rest found _ ih => exact .quoted isQuote found (ih read)
  | case6 terms opened cs _ _ ih => exact .opening (b := .round) (ih read)
  | case7 terms opened cs _ _ _ ih => exact .opening (b := .square) (ih read)
  -- The attached list is left over from the proof that the scan ends.
  | case8 terms cs bracket before around e closed _ _ _ _ _ ih =>
    simp only [List.unattach_reverse, List.unattach_attach] at closed
    rw [closed] at read
    exact .closing closed (ih read)
  | case9 terms cs bracket before around fault closed =>
    simp only [List.unattach_reverse, List.unattach_attach] at closed
    rw [closed] at read
    contradiction
  | case12 terms opened c cs noIdle noQuote noRound noSquare noCloser _ ih =>
    refine .token ⟨by simpa using noIdle, by simpa using noQuote, ?_⟩ (ih read)
    rw [not_or] at noCloser
    simp [isBracket, noRound, noSquare, noCloser]
  -- Open brackets at the end, open quotes and brackets that do not match are faults.
  | case2 | case4 | case10 | case11 => contradiction

/-! ## The two agree -/

theorem scan_eq_ok_iff {s : List Char} : scan outer [] [] s = .ok terms ↔ Terms outer s terms := by
  constructor
  · intro read
    obtain ⟨es, text, rfl⟩ := completes_of_scan read
    exact text
  · intro text
    have read := text.scan [] [] [] rfl (ends_nil outer)
    rw [List.append_nil, List.append_nil, scan.eq_1] at read
    simpa using read

theorem read_eq_ok_iff {s : List Char} {e : Expr} : form.read s = .ok e ↔ Grammatical form s e := by
  rw [ExprForm.read]
  constructor
  · intro read
    cases scanned : scan form [] [] s with
    | error fault =>
      rw [scanned] at read
      contradiction
    | ok terms =>
      rw [scanned] at read
      exact ⟨terms, scan_eq_ok_iff.1 scanned, ExprForm.close_eq_ok.1 read⟩
  · rintro ⟨terms, text, yields⟩
    rw [scan_eq_ok_iff.2 text]
    exact ExprForm.close_eq_ok.2 yields

/-- A text is read as an expression exactly if the grammar says so, and every other text is
refused with a fault that names it. -/
theorem parse_eq_ok_iff (form : ExprForm) (text : String) :
    (∀ e, Expr.parse form text = .ok e ↔ Grammatical form text.toList e) ∧
      ((∃ e, Grammatical form text.toList e) ∨ ∃ fault, Expr.parse form text = .error (.expression text fault)) := by
  cases read : form.read text.toList with
  | ok e =>
    have parsed : Expr.parse form text = .ok e := by rw [Expr.parse, read]
    refine ⟨fun e' => ?_, .inl ⟨e, read_eq_ok_iff.1 read⟩⟩
    rw [parsed, ← read_eq_ok_iff, read]
    simp
  | error fault =>
    have parsed : Expr.parse form text = .error (.expression text fault) := by rw [Expr.parse, read]
    refine ⟨fun e => ?_, .inr ⟨fault, parsed⟩⟩
    rw [parsed, ← read_eq_ok_iff, read]
    simp

end Folio
