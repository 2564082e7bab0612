import Folio.Proofs.Expr.Blanks
import Folio.Proofs.Template.Unique

/-!
# Quotes in substitutions

Where a substitution ends is looked for before its text is read as an expression, and the two
disagree on quotes: to the expression a quote in the middle of a bare token is a character like
others, but the search for the closing brace takes it for the beginning of a string.  They agree
where every quote that the search opens is closed, as it is if quotes stand only around strings.

Main statement: `substitution_read_alone`.
-/

namespace Folio

open Text (trimChars)

/-! ## Quotes around strings only -/

/-- The text consists of terms, and none of its bare tokens holds a quote. -/
inductive NoQuoteInToken : ExprForm → List Char → Prop where
  | nil {form : ExprForm} : NoQuoteInToken form []
  | idle {form : ExprForm} {c : Char} {s : List Char} (idle : form.isIdle c = true) (others : NoQuoteInToken form s) :
      NoQuoteInToken form (c :: s)
  | quoted {form : ExprForm} {quote : Char} {literal s : List Char} (isQuote : quote = '\'' ∨ quote = '"')
      (absent : quote ∉ literal) (others : NoQuoteInToken form s) : NoQuoteInToken form (quote :: (literal ++ quote :: s))
  | bracket {form : ExprForm} {b : Bracket} {inner s : List Char} (inside : NoQuoteInToken b.form inner)
      (others : NoQuoteInToken form s) : NoQuoteInToken form (b.opener :: (inner ++ b.closer :: s))
  | token {form : ExprForm} {c : Char} {more s : List Char} (starts : StartsToken form c)
      (goesOn : ∀ d ∈ more, form.isTerminator d = false) (noQuote : ∀ d ∈ more, isQuote d = false) (ends : Ends form s)
      (others : NoQuoteInToken form s) : NoQuoteInToken form (c :: (more ++ s))

namespace Template

theorem Unbraced.append {s t : List Char} (first : Unbraced s) (second : Unbraced t) : Unbraced (s ++ t) := by
  induction first with
  | nil => exact second
  | char noClose noQuote rest ih => exact .char noClose noQuote ih
  | quoted isQuote absent rest ih => simpa using Unbraced.quoted isQuote absent ih

theorem unbraced_of_noQuote {s : List Char} (noClose : '\x7d' ∉ s) (noQuote : ∀ c ∈ s, isQuote c = false) : Unbraced s := by
  induction s with
  | nil => exact .nil
  | cons c s ih =>
    obtain ⟨first, others⟩ := List.forall_mem_cons.1 noQuote
    rw [List.mem_cons, not_or] at noClose
    exact .char (Ne.symm noClose.1) first (ih noClose.2 others)

end Template

open Template in
/-- Where quotes stand only around strings, the search for a closing brace closes each of them. -/
theorem NoQuoteInToken.unbraced {form : ExprForm} {s : List Char} (text : NoQuoteInToken form s) (noClose : '\x7d' ∉ s) :
    Unbraced s := by
  induction text with
  | nil => exact .nil
  | @idle form c s idle others ih =>
    rw [List.mem_cons, not_or] at noClose
    have noQuote : isQuote c = false := by
      by_contra quote
      rw [Bool.not_eq_false] at quote
      obtain rfl | rfl : c = '\'' ∨ c = '"' := by simpa [isQuote] using quote
      · cases form <;> exact absurd idle (by decide)
      · cases form <;> exact absurd idle (by decide)
    exact .char (Ne.symm noClose.1) noQuote (ih noClose.2)
  | quoted isQuote absent others ih => exact .quoted isQuote absent (ih fun mem => noClose (by simp [mem]))
  | @bracket form b inner s inside others insideClosed ih =>
    have marks : b.opener ≠ '\x7d' ∧ isQuote b.opener = false ∧ b.closer ≠ '\x7d' ∧ isQuote b.closer = false := by
      cases b <;> decide
    obtain ⟨openBrace, openQuote, closeBrace, closeQuote⟩ := marks
    have first := insideClosed fun mem => noClose (by simp [mem])
    exact .char openBrace openQuote (first.append (.char closeBrace closeQuote (ih fun mem => noClose (by simp [mem]))))
  | @token form c more s starts goesOn noQuote ends others ih =>
    rw [← List.cons_append, List.mem_append, not_or] at noClose
    have here := unbraced_of_noQuote noClose.1 (List.forall_mem_cons.2 ⟨starts.noQuote, noQuote⟩)
    exact here.append (ih noClose.2)

namespace Template

/-! ## A tag in front of a text -/

theorem expressionText_eq_trimChars {s : List Char} (noSlash : trimChars s ≠ ['/']) (noWord : ¬loopWord <+: trimChars s) :
    expressionText s = trimChars s := by
  rw [List.prefix_iff_eq_take] at noWord
  simp only [expressionText, if_neg noSlash, if_neg (Ne.symm noWord)]

theorem parse_tag_append {t u : String} {e : Expr} {v : Template} (unbraced : Unbraced t.toList)
    (single : t.toList.head? ≠ some '\x7b') (oneLine : '\n' ∉ t.toList) (stands : StandsFor t.toList (.expression e))
    (tidy : TidyNode (.expression e)) (parsed : parse u = .ok v) :
    parse ("\x7b" ++ t ++ "\x7d" ++ u) = .ok (.expression e :: v) := by
  obtain ⟨cut, others⟩ := parseWith_eq_ok_iff_cut.1 parsed
  refine parseWith_eq_ok_iff_cut.2 ⟨?_, others.cons tidy (by simp)⟩
  have spelled : ("\x7b" ++ t ++ "\x7d" ++ u).toList = '\x7b' :: (t.toList ++ ['\x7d']) ++ u.toList := by
    simp [String.toList_append]
  rw [cut_iff] at cut ⊢
  rw [tokens, spelled, ← tokensFrom, tokensFrom_tag unbraced.passes oneLine single]
  exact .cons (.substitution 1 stands) cut

/-- A quote that stays open hides the brace that closes the tag. -/
theorem splitAtBrace_eq_none {s : List Char} (noClose : '\x7d' ∉ s) (braced : ¬Unbraced s) :
    splitAtBrace none (s ++ ['\x7d']) = none := by
  by_contra found
  obtain ⟨⟨inner, rest⟩, found⟩ := Option.ne_none_iff_exists'.1 found
  obtain ⟨whole, unbraced⟩ := openUnbraced_of_splitAtBrace found
  -- The only brace that closes is the last character, so what stands before it is the whole text.
  obtain ⟨rfl, -, -⟩ := (List.append_cons_inj_of_notMem noClose (by simp)).1 whole
  exact braced unbraced

theorem parse_tag_open {t : String} (noBrace : '\x7b' ∉ t.toList ∧ '\x7d' ∉ t.toList) (oneLine : '\n' ∉ t.toList)
    (braced : ¬Unbraced t.toList) : parse ("\x7b" ++ t ++ "\x7d") = .error (.openBrace 1) := by
  have single : (t.toList ++ ['\x7d']).head? ≠ some '\x7b' := by
    intro first
    have mem := List.mem_of_mem_head? first
    simp only [List.mem_append, List.mem_singleton] at mem
    exact mem.elim noBrace.1 (by decide)
  have spelled : ("\x7b" ++ t ++ "\x7d").toList = '\x7b' :: (t.toList ++ ['\x7d']) := by
    simp [String.toList_append]
  have cut : tokens (fun _ _ => false) ("\x7b" ++ t ++ "\x7d") = [.openBrace 1] := by
    rw [tokens, spelled, Text.linesOf_oneLine (by simp) (by simp [oneLine]), linesTokens, linesTokens,
      lineTokens_open single rfl (splitAtBrace_eq_none noBrace.2 braced), List.append_nil]
  rw [parse, parseWith, cut]
  rfl

/-! ## Main statement -/

/-- The text stands on one line, has no braces and reads as an expression that is no tag of a block. -/
structure Substitutes (t : String) (e : Expr) : Prop where
  noBrace : '\x7b' ∉ t.toList ∧ '\x7d' ∉ t.toList
  oneLine : '\n' ∉ t.toList
  read : Expr.parse .list t = .ok e
  noSlash : trimChars t.toList ≠ ['/']
  noWord : ¬loopWord <+: trimChars t.toList
  noBareLoop : e ≠ .variable "foreach"
  noEnd : e ≠ .variable "end"
  noLoop : ∀ args, e ≠ .apply (.variable "foreach") args

theorem Substitutes.standsFor {t : String} {e : Expr} (substitutes : Substitutes t e) :
    StandsFor t.toList (.expression e) := by
  refine ⟨e, ?_, .expression substitutes.noBareLoop substitutes.noEnd substitutes.noLoop⟩
  rw [expressionText_eq_trimChars substitutes.noSlash substitutes.noWord]
  exact parse_trimChars (by rw [String.ofList_toList, substitutes.read])

theorem Substitutes.tidy {t : String} {e : Expr} (substitutes : Substitutes t e) : TidyNode (.expression e) :=
  .expression substitutes.noBareLoop substitutes.noEnd substitutes.noLoop

/-- In braces the text is read as the expression, and what follows as it is read alone, if each quote
that the search for the closing brace opens is closed.  It is so where no bare token holds a quote.
Otherwise the braces are rejected. -/
theorem substitution_read_alone (t : String) (e : Expr) (substitutes : Substitutes t e) :
    (Unbraced t.toList → parse ("\x7b" ++ t ++ "\x7d") = .ok [.expression e] ∧
      ∀ u v, parse u = .ok v → parse ("\x7b" ++ t ++ "\x7d" ++ u) = .ok (.expression e :: v)) ∧
      (¬Unbraced t.toList → parse ("\x7b" ++ t ++ "\x7d") = .error (.openBrace 1)) ∧
      (NoQuoteInToken .list t.toList → Unbraced t.toList) := by
  obtain ⟨noBrace, oneLine, -⟩ := id substitutes
  refine ⟨fun unbraced => ?_, parse_tag_open noBrace oneLine, fun text => text.unbraced noBrace.2⟩
  have single : t.toList.head? ≠ some '\x7b' := fun first => noBrace.1 (List.mem_of_mem_head? first)
  have follows (u : String) (v : Template) (parsed : parse u = .ok v) :=
    parse_tag_append unbraced single oneLine substitutes.standsFor substitutes.tidy parsed
  exact ⟨by simpa using follows "" [] rfl, follows⟩

theorem substitutes_word : Substitutes "don't" (.value (.str "don't")) :=
  ⟨by decide, by decide, by cbv, by decide, by decide, by simp, by simp, by simp⟩

theorem not_unbraced_word : ¬Unbraced "don't".toList := by
  intro unbraced
  have found := unbraced.splitAtBrace []
  have lost : splitAtBrace none ("don't".toList ++ ['\x7d']) = none := by decide
  rw [lost] at found
  cases found

/-- Blanks around terms and a quoted string, before a text that begins with a closing brace; and a
quote in a token that stays open. -/
theorem substitution_read_alone_string :
    Substitutes " f 'a' " (.apply (.variable "f") [.value (.str "a")]) ∧
      parse ("\x7b" ++ " f 'a' " ++ "\x7d" ++ "\x7d\n") =
        .ok [.expression (.apply (.variable "f") [.value (.str "a")]), .literal "\x7d\n"] ∧
      Substitutes "don't" (.value (.str "don't")) ∧ parse ("\x7b" ++ "don't" ++ "\x7d") = .error (.openBrace 1) := by
  have string : Substitutes " f 'a' " (.apply (.variable "f") [.value (.str "a")]) :=
    ⟨by decide, by decide, by cbv, by decide, by decide, by simp, by simp, by simp⟩
  have token : StartsToken .list 'f' := ⟨by decide, by decide, by decide⟩
  have quoted : NoQuoteInToken .list "'a' ".toList :=
    @NoQuoteInToken.quoted .list '\'' ['a'] [' '] (.inl rfl) (by decide) (.idle rfl .nil)
  have strings : NoQuoteInToken .list " f 'a' ".toList :=
    .idle rfl (@NoQuoteInToken.token .list 'f' [] " 'a' ".toList token (by simp) (by simp) (fun c first => by
      obtain rfl := Option.some_inj.1 first
      rfl) (.idle rfl quoted))
  obtain ⟨closed, -, unbraced⟩ := substitution_read_alone _ _ string
  refine ⟨string, (closed (unbraced strings)).2 "\x7d\n" [.literal "\x7d\n"] (by cbv), substitutes_word, ?_⟩
  exact (substitution_read_alone _ _ substitutes_word).2.1 not_unbraced_word

/-- A quote in a bare token opens a string for the search.  If nothing closes it, the braces are
rejected; if a quote after the braces does, what stands up to the next brace belongs to the tag. -/
theorem quote_in_token_opens :
    (Substitutes "don't" (.value (.str "don't")) ∧ parse ("\x7b" ++ "don't" ++ "\x7d") = .error (.openBrace 1)) ∧
      Substitutes "a'" (.value (.str "a'")) ∧ parse "'\x7d" = .ok [.literal "'\x7d"] ∧
        parse ("\x7b" ++ "a'" ++ "\x7d" ++ "'\x7d") = .ok [.expression (.value (.str "a'\x7d'"))] := by
  have token : Substitutes "a'" (.value (.str "a'")) :=
    ⟨by decide, by decide, by cbv, by decide, by decide, by simp, by simp, by simp⟩
  have spelled : "\x7b" ++ "a'" ++ "\x7d" ++ "'\x7d" = "\x7ba'\x7d'\x7d" := by decide
  have cut : tokens (fun _ _ => false) "\x7ba'\x7d'\x7d" = [.substitution 1 "a'\x7d'".toList] := by cbv
  have swallowed : StandsFor "a'\x7d'".toList (.expression (.value (.str "a'\x7d'"))) := by
    have same : String.ofList (expressionText "a'\x7d'".toList) = "a'\x7d'" := by decide +kernel
    have read : Expr.parse .list "a'\x7d'" = .ok (.value (.str "a'\x7d'")) := by cbv
    exact ⟨_, same ▸ read, .expression (by simp) (by simp) (by simp)⟩
  refine ⟨⟨substitutes_word, parse_tag_open (by decide) (by decide) not_unbraced_word⟩, token, by cbv, ?_⟩
  rw [spelled]
  exact parseWith_of_reads cut (.cons (.substitution 1 swallowed) .nil)
    (tidy_nil.cons (.expression (by simp) (by simp) (by simp)) (by simp))

end Template

end Folio
