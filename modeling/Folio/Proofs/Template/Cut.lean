import Folio.Proofs.Template.Line
import Folio.Proofs.Template.Source

/-!
# Cutting a template

How the text of a template falls into pieces, said without the reader: characters of the
text and tags in braces, line by line and from left to right.  The tokens of the reader
are these pieces.

Main statement: `textCut_iff`.
-/

namespace Folio.Template

/-! ## Pieces -/

/-- A piece of a template as the tree has it: a character of a literal, an expression, or
the beginning or end of a loop.  A loop without a source has no place in a tree. -/
inductive Mark where
  | char (c : Char)
  | expression (e : Expr)
  | opens (args : List Expr)
  | bareLoop
  | closes

/-- What an expression in braces means. -/
inductive Means : Expr → Mark → Prop where
  | opens (args : List Expr) : Means (.apply (.variable "foreach") args) (.opens args)
  | bareLoop : Means (.variable "foreach") .bareLoop
  | closes : Means (.variable "end") .closes
  | expression {e : Expr} (noBareLoop : e ≠ .variable "foreach") (noEnd : e ≠ .variable "end")
      (noLoop : ∀ args, e ≠ .apply (.variable "foreach") args) : Means e (.expression e)

/-- The text between braces reads as an expression that means the mark. -/
def StandsFor (inner : List Char) (m : Mark) : Prop :=
  ∃ e, Expr.parse .list (String.ofList (expressionText inner)) = .ok e ∧ Means e m

/-- Every closing brace in the text stands in quotes, and every quote is closed. -/
inductive Unbraced : List Char → Prop where
  | nil : Unbraced []
  | char {c : Char} {s : List Char} (noClose : c ≠ '\x7d') (noQuote : isQuote c = false) (rest : Unbraced s) :
      Unbraced (c :: s)
  | quoted {quote : Char} {literal s : List Char} (isQuote : quote = '\'' ∨ quote = '"') (absent : quote ∉ literal)
      (rest : Unbraced s) : Unbraced (quote :: (literal ++ quote :: s))

/-- The pieces of a line from a column on.  Of two equal braces only the first is looked
up in the code, and of a tag only the brace that opens it. -/
inductive LineCut (isCode : ℕ → Bool) : ℕ → List Char → List Mark → Prop where
  | nil (column : ℕ) : LineCut isCode column [] []
  | char {column : ℕ} {c : Char} {s : List Char} {marks : List Mark} (noOpen : c ≠ '\x7b') (noClose : c ≠ '\x7d')
      (rest : LineCut isCode (column + c.utf8Size) s marks) : LineCut isCode column (c :: s) (.char c :: marks)
  | code {column : ℕ} {c : Char} {s : List Char} {marks : List Mark} (brace : c = '\x7b' ∨ c = '\x7d')
      (inCode : isCode column = true) (rest : LineCut isCode (column + 1) s marks) :
      LineCut isCode column (c :: s) (.char c :: marks)
  | doubled {column : ℕ} {c : Char} {s : List Char} {marks : List Mark} (brace : c = '\x7b' ∨ c = '\x7d')
      (noCode : isCode column = false) (rest : LineCut isCode (column + 2) s marks) :
      LineCut isCode column (c :: c :: s) (.char c :: marks)
  | closing {column : ℕ} {s : List Char} {marks : List Mark} (alone : s.head? ≠ some '\x7d')
      (noCode : isCode column = false) (rest : LineCut isCode (column + 1) s marks) :
      LineCut isCode column ('\x7d' :: s) (.char '\x7d' :: marks)
  | tag {column : ℕ} {inner s : List Char} {m : Mark} {marks : List Mark} (single : inner.head? ≠ some '\x7b')
      (noCode : isCode column = false) (unbraced : Unbraced inner) (stands : StandsFor inner m)
      (rest : LineCut isCode (column + Text.byteLength inner + 2) s marks) :
      LineCut isCode column ('\x7b' :: (inner ++ '\x7d' :: s)) (m :: marks)

/-- The pieces of a text whose first line has this number.  Every line is cut by itself. -/
inductive TextCut (isCode : ℕ → ℕ → Bool) : ℕ → List Char → List Mark → Prop where
  | nil (index : ℕ) : TextCut isCode index [] []
  | last {index : ℕ} {s : List Char} {marks : List Mark} (present : s ≠ []) (oneLine : '\n' ∉ s)
      (line : LineCut (isCode index) 0 s marks) : TextCut isCode index s marks
  | line {index : ℕ} {s below : List Char} {marks others : List Mark} (oneLine : '\n' ∉ s)
      (line : LineCut (isCode index) 0 (s ++ ['\n']) marks) (rest : TextCut isCode (index + 1) below others) :
      TextCut isCode index (s ++ '\n' :: below) (marks ++ others)

inductive Token.Reads : Token → Mark → Prop where
  | char (c : Char) : Reads (.char c) (.char c)
  | substitution {inner : List Char} {m : Mark} (line : ℕ) (stands : StandsFor inner m) :
      Reads (.substitution line inner) m

/-! ## The brace that closes -/

theorem Unbraced.passes {s : List Char} (unbraced : Unbraced s) : Passes s := by
  induction unbraced with
  | nil => exact passes_nil
  | char noClose noQuote rest ih => exact (passes_char noClose noQuote).append ih
  | quoted isQuote absent rest ih =>
    have passes := (passes_quoted isQuote absent).append ih
    simpa using passes

theorem Unbraced.splitAtBrace {s : List Char} (unbraced : Unbraced s) (rest : List Char) :
    splitAtBrace none (s ++ '\x7d' :: rest) = some (s, rest) := by
  rw [unbraced.passes, Template.splitAtBrace, if_pos rfl]
  simp

/-- What the text before the brace that closes is like: after the quote that is open it is
`Unbraced`. -/
def OpenUnbraced : Option Char → List Char → Prop
  | none, s => Unbraced s
  | some quote, s => ∃ literal rest, s = literal ++ quote :: rest ∧ quote ∉ literal ∧ Unbraced rest

theorem openUnbraced_of_splitAtBrace {s inner rest : List Char} :
    ∀ {quote : Option Char}, splitAtBrace quote s = some (inner, rest) →
      s = inner ++ '\x7d' :: rest ∧ OpenUnbraced quote inner := by
  induction s generalizing inner with
  | nil =>
    intro quote found
    cases quote <;> contradiction
  | cons c s ih =>
    intro quote found
    cases quote with
    | some quote =>
      rw [splitAtBrace] at found
      obtain ⟨⟨front, back⟩, later, eq⟩ := Option.map_eq_some_iff.1 found
      cases eq
      obtain ⟨rfl, shape⟩ := ih later
      refine ⟨rfl, ?_⟩
      -- In a quote every character is passed by, braces too, up to the quote that ends it.
      split_ifs at shape with same
      · exact ⟨[], front, by simp [same], by simp, shape⟩
      · obtain ⟨literal, more, rfl, absent, unbraced⟩ := shape
        exact ⟨c :: literal, more, rfl, by simp [absent, Ne.symm same], unbraced⟩
    | none =>
      rw [splitAtBrace] at found
      by_cases brace : c = '\x7d'
      · rw [if_pos brace] at found
        cases found
        exact ⟨by rw [brace]; rfl, .nil⟩
      · rw [if_neg brace] at found
        obtain ⟨⟨front, back⟩, later, eq⟩ := Option.map_eq_some_iff.1 found
        cases eq
        obtain ⟨rfl, shape⟩ := ih later
        refine ⟨rfl, ?_⟩
        by_cases opens : isQuote c = true
        · rw [if_pos opens] at shape
          obtain ⟨literal, more, rfl, absent, unbraced⟩ := shape
          exact .quoted (by simpa [isQuote] using opens) absent unbraced
        · rw [if_neg opens] at shape
          exact .char brace (by simpa using opens) shape

/-! ## Tokens are pieces -/

variable {isCode : ℕ → ℕ → Bool} {s : List Char} {marks : List Mark}

theorem LineCut.reads {isCode : ℕ → Bool} {column : ℕ} (line : ℕ) (cut : LineCut isCode column s marks) :
    List.Forall₂ Token.Reads (lineTokens isCode line column s) marks := by
  induction cut with
  | nil column =>
    rw [lineTokens]
    exact .nil
  | @char column c s marks noOpen noClose rest ih =>
    rw [lineTokens_text (.inl ⟨noOpen, noClose⟩)]
    exact .cons (.char c) ih
  | @code column c s marks brace inCode rest ih =>
    have size : c.utf8Size = 1 := by obtain rfl | rfl := brace <;> decide
    rw [lineTokens_text (.inr inCode), size]
    exact .cons (.char c) ih
  | @doubled column c s marks brace noCode rest ih =>
    rw [lineTokens_doubled brace noCode]
    exact .cons (.char c) ih
  | closing alone noCode rest ih =>
    rw [lineTokens_closing alone noCode]
    exact .cons (.char _) ih
  | tag single noCode unbraced stands rest ih =>
    rw [lineTokens_substitution single noCode (unbraced.splitAtBrace _)]
    exact .cons (.substitution line stands) ih

theorem brace_of_not_text {isCode : ℕ → Bool} {column : ℕ} {c : Char}
    (syntactic : ¬((c ≠ '\x7b' ∧ c ≠ '\x7d') ∨ isCode column = true)) :
    (c = '\x7b' ∨ c = '\x7d') ∧ isCode column = false := by
  simp only [not_or, not_and_or, not_not, Bool.not_eq_true] at syntactic
  exact syntactic

theorem lineCut_of_reads {isCode : ℕ → Bool} {line column : ℕ}
    (reads : List.Forall₂ Token.Reads (lineTokens isCode line column s) marks) : LineCut isCode column s marks := by
  fun_induction lineTokens isCode line column s generalizing marks with
  | case1 column =>
    cases reads
    exact .nil column
  | case2 column c cs text ih =>
    obtain - | ⟨⟨⟩, reads⟩ := reads
    have later := ih reads
    -- Text is a character that is no brace, or a brace in code.
    by_cases brace : c = '\x7b' ∨ c = '\x7d'
    · have inCode := text.resolve_left fun other => brace.elim other.1 other.2
      have size : c.utf8Size = 1 := by obtain rfl | rfl := brace <;> decide
      rw [size] at later
      exact .code brace inCode later
    · rw [not_or] at brace
      exact .char brace.1 brace.2 later
  | case3 column syntactic =>
    obtain - | ⟨⟨⟩, ⟨⟩⟩ := reads
    exact .closing (by simp) (brace_of_not_text syntactic).2 (.nil _)
  | case5 column c cs syntactic ih =>
    obtain - | ⟨⟨⟩, reads⟩ := reads
    obtain ⟨brace, noCode⟩ := brace_of_not_text syntactic
    exact .doubled brace noCode (ih reads)
  | case6 column d more syntactic other ih =>
    obtain - | ⟨⟨⟩, reads⟩ := reads
    exact .closing (by simpa using other) (brace_of_not_text syntactic).2 (ih reads)
  | case8 column c syntactic d more other opens inner rest found shorter ih =>
    obtain - | ⟨⟨⟩, reads⟩ := reads
    rename_i m marks stands
    obtain ⟨brace, noCode⟩ := brace_of_not_text syntactic
    obtain rfl := brace.resolve_right opens
    obtain ⟨eq, unbraced⟩ := openUnbraced_of_splitAtBrace found
    have single : inner.head? ≠ some '\x7b' := by
      cases inner with
      | nil => simp
      | cons first inner =>
        obtain rfl := (List.cons.inj eq).1
        simpa using other
    rw [eq]
    exact .tag single noCode unbraced stands (ih reads)
  | case4 | case7 => obtain - | ⟨⟨⟩, _⟩ := reads

theorem exists_append_of_forall₂ {tokens others : List Token}
    (reads : List.Forall₂ Token.Reads (tokens ++ others) marks) :
    ∃ here later, marks = here ++ later ∧ List.Forall₂ Token.Reads tokens here ∧
      List.Forall₂ Token.Reads others later := by
  refine ⟨marks.take tokens.length, marks.drop tokens.length, (List.take_append_drop _ _).symm, ?_, ?_⟩
  · simpa using List.forall₂_take tokens.length reads
  · simpa using List.forall₂_drop tokens.length reads

/-- A text is cut into the marks that its tokens are read as. -/
theorem textCut_iff {index : ℕ} :
    TextCut isCode index s marks ↔ List.Forall₂ Token.Reads (linesTokens isCode index (Text.linesOf s)) marks := by
  constructor
  · intro cut
    induction cut with
    | nil index => exact .nil
    | last present oneLine line =>
      rw [Text.linesOf_oneLine present oneLine, linesTokens, linesTokens, List.append_nil]
      exact line.reads _
    | line oneLine line rest ih =>
      rw [Text.linesOf_line oneLine, linesTokens]
      exact List.rel_append (line.reads _) ih
  · intro reads
    -- By the length: what stands below the first line is shorter.
    induction length : s.length using Nat.strong_induction_on generalizing s index marks with
    | _ n ih =>
      by_cases several : '\n' ∈ s
      · obtain ⟨front, below, rfl, oneLine⟩ := List.eq_append_cons_of_mem several
        rw [Text.linesOf_line oneLine, linesTokens] at reads
        obtain ⟨here, later, rfl, first, others⟩ := exists_append_of_forall₂ reads
        exact .line oneLine (lineCut_of_reads first) (ih below.length (by simp [← length]; omega) others rfl)
      · by_cases empty : s = []
        · subst empty
          cases reads
          exact .nil index
        · rw [Text.linesOf_oneLine empty several, linesTokens, linesTokens, List.append_nil] at reads
          exact .last empty several (lineCut_of_reads reads)

end Folio.Template
