import Folio.Proofs.Template.Source

/-!
# Templates read back from their source

If a tree is one that reading could yield, its source is read as the tree: the builder
takes a piece at a time, and a literal stays pending until the next piece.

Main statement: `parse_source`.
-/

namespace Folio.Template

/-! ## Building the tree again -/

variable {b : Builder}

theorem run_char (b : Builder) (c : Char) (more : List Token) :
    b.run (.char c :: more) = Builder.run { b with pending := c :: b.pending } more := rfl

/-- The characters of a literal are pending when it has been read. -/
theorem run_escapeBraces (b : Builder) (s : List Char) (index : ℕ) (rest : List Char) :
    ∃ next, b.run (tokensFrom index (escapeBraces s ++ rest)) =
      Builder.run { b with pending := s.reverse ++ b.pending } (tokensFrom next rest) := by
  induction s generalizing b index with
  | nil => exact ⟨index, rfl⟩
  | cons c s ih =>
    have pending : (c :: s).reverse ++ b.pending = s.reverse ++ c :: b.pending := by simp
    rw [pending, escapeBraces]
    split_ifs with brace
    · obtain ⟨next, same⟩ := ih { b with pending := c :: b.pending } index
      exact ⟨next, by rw [List.cons_append, List.cons_append, tokensFrom_brace brace, run_char, same]⟩
    · by_cases newline : c = '\n'
      · subst newline
        obtain ⟨next, same⟩ := ih { b with pending := '\n' :: b.pending } (index + 1)
        exact ⟨next, by rw [List.cons_append, tokensFrom_newline, run_char, same]⟩
      · obtain ⟨next, same⟩ := ih { b with pending := c :: b.pending } index
        rw [not_or] at brace
        exact ⟨next, by rw [List.cons_append, tokensFrom_char brace.1 brace.2 newline, run_char, same]⟩

/-- What the text of an expression in braces is read as is added. -/
theorem run_inBraces {e read : Expr} (inner : Inner e.text.toList) (reads : Expr.parse .list e.text = .ok read)
    (index : ℕ) (rest : List Char) {after : Builder} (adds : b.add (index + 1) read = .ok after) :
    b.run (tokensFrom index (inBraces e ++ rest)) = after.run (tokensFrom index rest) := by
  rw [← String.ofList_toList (s := e.text)] at reads
  rw [inBraces, tokensFrom_inner inner, Builder.run, inner.step reads, adds]

theorem add_expression {e : Expr} (noBareLoop : e ≠ .variable "foreach") (noEnd : e ≠ .variable "end")
    (noLoop : ∀ args, e ≠ .apply (.variable "foreach") args) (b : Builder) (line : ℕ) :
    b.add line e = .ok ⟨.expression e :: b.flushed, [], b.opened⟩ := by
  have tag : Tag.ofExpr e = .substitute e := by
    unfold Tag.ofExpr
    split
    · rename_i name args
      exact if_neg fun same => noLoop args (by rw [same])
    · rename_i name
      rw [if_neg fun same => noBareLoop (by rw [same]), if_neg fun same => noEnd (by rw [same])]
    · rfl
  rw [Builder.add, tag]

theorem add_loop (b : Builder) (line : ℕ) (args : List Expr) :
    b.add line (.apply (.variable "foreach") args) = .ok ⟨[], [], ⟨args, b.flushed⟩ :: b.opened⟩ := rfl

theorem add_end {args : List Expr} {before : List Node} {around : List OpenLoop}
    (opened : b.opened = ⟨args, before⟩ :: around) (line : ℕ) :
    b.add line (.variable "end") = .ok ⟨.loop args b.flushed.reverse :: before, [], around⟩ := by
  have tag : Tag.ofExpr (.variable "end") = .closeLoop := rfl
  rw [Builder.add, tag]
  dsimp only
  rw [opened]

theorem printable_end : Printable (.variable "end") :=
  .name (by decide) (by decide) (by decide)

/-- The source of the nodes adds the nodes, provided that no literal is pending where they
begin with one. -/
theorem run_nodesSource {t : Template} (normal : Normal t) :
    ∀ (b : Builder) (index : ℕ) (rest : List Char),
      (b.pending = [] ∨ ∀ text, t.head? ≠ some (.literal text)) →
      ∃ (after : Builder) (next : ℕ), b.run (tokensFrom index (nodesSource t ++ rest)) =
        after.run (tokensFrom next rest) ∧ after.flushed = t.reverse ++ b.flushed ∧ after.opened = b.opened := by
  induction normal with
  | nil => exact fun b index rest _ => ⟨b, index, rfl, rfl, rfl⟩
  | @literal text t present apart normal ih =>
    intro b index rest clear
    -- The literal is not flushed yet: the piece after it is no literal, and will see to that.
    have empty : b.pending = [] := clear.resolve_right fun apart => apart text rfl
    obtain ⟨next, read⟩ := run_escapeBraces b text.toList index (nodesSource t ++ rest)
    obtain ⟨after, last, goes, flushed, opened⟩ := ih { b with pending := text.toList.reverse ++ b.pending } next rest
      (.inr apart)
    refine ⟨after, last, ?_, ?_, opened⟩
    · rw [nodesSource, nodeSource, List.append_assoc, read, goes]
    · have here : Builder.flushed { b with pending := text.toList.reverse ++ b.pending } =
          .literal text :: b.flushed := by
        simp [Builder.flushed, empty, present]
      rw [flushed, here, List.reverse_cons, List.append_assoc, List.singleton_append]
  | @expression e t printable noBareLoop noEnd noLoop normal ih =>
    intro b index rest _
    obtain ⟨after, last, goes, flushed, opened⟩ := ih ⟨.expression e :: b.flushed, [], b.opened⟩ index rest (.inl rfl)
    refine ⟨after, last, ?_, ?_, opened⟩
    · rw [nodesSource, nodeSource, List.append_assoc,
        run_inBraces printable.inner printable.parse_text index _ (add_expression noBareLoop noEnd noLoop b _), goes]
    · rw [flushed, List.reverse_cons, List.append_assoc, List.singleton_append]
      rfl
  | @loop args body t present printable inside normal bodyReads ih =>
    intro b index rest _
    have opens : Printable (.apply (.variable "foreach") args) :=
      .apply (.name (by decide) (by decide) (by decide)) present printable
    -- The body is read in a builder of its own, on top of what is open already.
    obtain ⟨middle, next, reads, inner, around⟩ :=
      bodyReads ⟨[], [], ⟨args, b.flushed⟩ :: b.opened⟩ index (inBraces (.variable "end") ++ (nodesSource t ++ rest))
        (.inl rfl)
    have same : middle.flushed.reverse = body := by
      rw [inner]
      simp [Builder.flushed]
    obtain ⟨after, last, goes, flushed, opened⟩ := ih ⟨.loop args body :: b.flushed, [], b.opened⟩ next rest (.inl rfl)
    refine ⟨after, last, ?_, ?_, opened⟩
    · have closes := run_inBraces printable_end.inner printable_end.parse_text next (nodesSource t ++ rest) (add_end around (next + 1))
      rw [same] at closes
      rw [nodesSource, nodeSource, List.append_assoc, List.append_assoc, List.append_assoc,
        run_inBraces opens.inner opens.parse_text index _ (add_loop b _ args), reads, closes, goes]
    · rw [flushed, List.reverse_cons, List.append_assoc, List.singleton_append]
      rfl

theorem parse_of_run {t : Template} {after : Builder} {next : ℕ}
    (goes : Builder.start.run (tokensFrom 0 (nodesSource t)) = after.run (tokensFrom next []))
    (closed : after.opened = []) : parse (source t) = .ok after.flushed.reverse := by
  rw [tokensFrom_nil] at goes
  have all : Builder.start.run (tokens (fun _ _ => false) (source t)) = .ok after := by
    rw [tokens, source, String.toList_ofList, ← tokensFrom, goes]
    rfl
  rw [parse, parseWith, all]
  dsimp only
  rw [Builder.finish, closed]
  rfl

/-- A normal tree is read back from its source. -/
theorem parse_source {t : Template} (normal : Normal t) : parse (source t) = .ok t := by
  obtain ⟨after, next, goes, flushed, opened⟩ := run_nodesSource normal .start 0 [] (.inl rfl)
  rw [List.append_nil] at goes
  rw [parse_of_run goes opened, flushed]
  simp [Builder.flushed, Builder.start]

/-- A brace at the end of a literal, in quotes, and alone in a loop. -/
theorem parse_source_braces :
    parse (source [.literal "\x7d\n\x7b", .expression (.apply (.variable "f") [.value (.str "\x7d")]),
        .loop [.variable "tags"] [.literal "\x7b"]]) =
      .ok [.literal "\x7d\n\x7b", .expression (.apply (.variable "f") [.value (.str "\x7d")]),
        .loop [.variable "tags"] [.literal "\x7b"]] := by
  have f : Printable (.variable "f") := .name (by decide) (by decide) (by decide)
  have tags : Printable (.variable "tags") := .name (by decide) (by decide) (by decide)
  have brace : Printable (.value (.str "\x7d")) := .str (by decide) (by decide)
  have call : Printable (.apply (.variable "f") [.value (.str "\x7d")]) :=
    .apply f (by simp) (by simpa using brace)
  have inside : Normal [.literal "\x7b"] := .literal (by decide) (by simp) .nil
  have loop : Normal [.loop [.variable "tags"] [.literal "\x7b"]] := .loop (by simp) (by simpa using tags) inside .nil
  exact parse_source (.literal (by decide) (by simp) (.expression call (by simp) (by simp) (by simp) loop))

/-- An expression alone is read as whatever its text is read as. -/
theorem parse_source_expression {e read : Expr} (inner : Inner e.text.toList)
    (reads : Expr.parse .list e.text = .ok read)
    (adds : Builder.start.add 1 read = .ok ⟨[.expression read], [], []⟩) :
    parse (source [.expression e]) = .ok [.expression read] := by
  have goes := run_inBraces inner reads 0 [] adds
  rw [List.append_nil] at goes
  have alone : nodesSource [.expression e] = inBraces e := by simp [nodesSource, nodeSource]
  rw [← alone] at goes
  exact parse_of_run goes rfl

/-- A name that spells a truth value in other letters is read as the truth value, and a date
whose offset has seconds as another moment. -/
theorem other_leaves_lost :
    (isIdentifier "True".toList = true ∧ "True" ≠ "true" ∧ "True" ≠ "false" ∧
      parse (source [.expression (.variable "True")]) ≠ .ok [.expression (.variable "True")]) ∧
    ((⟨0, 0, 30⟩ : Calendar.Timestamp).toLocal.date.year = 1970 ∧
      parse (source [.expression (.value (.date ⟨0, 0, 30⟩))]) ≠ .ok [.expression (.value (.date ⟨0, 0, 30⟩))]) := by
  have letters : ∀ c ∈ "True".toList, Plain c := plain_of_isIdentifier (by decide +kernel)
  have bool : parse (source [.expression (.variable "True")]) = .ok [.expression (.value (.bool true))] :=
    parse_source_expression (inner_of_plain letters (by decide) (.inl (by decide)))
      (parse_bare ⟨by decide, letters⟩) rfl
  have rounded : Calendar.readTimestamp? (⟨0, 0, 30⟩ : Calendar.Timestamp).text.toList = some ⟨-30, 0, 60⟩ := by
    decide +kernel
  have date : parse (source [.expression (.value (.date ⟨0, 0, 30⟩))]) =
      .ok [.expression (.value (.date ⟨-30, 0, 60⟩))] := by
    refine parse_source_expression (inner_of_figures fun _ mem => isFigure_date mem) ?_ rfl
    refine (parse_bare (bare_date _)).trans ?_
    rw [classify_date, rounded]
  refine ⟨⟨by decide +kernel, by decide, by decide, ?_⟩, by decide +kernel, ?_⟩
  · rw [bool]
    exact fun same => nomatch same
  · rw [date]
    intro same
    injection same with same
    injection same with same
    injection same with same
    injection same with same
    injection same with same
    exact absurd same (by decide)

end Folio.Template
