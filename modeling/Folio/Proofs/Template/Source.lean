import Folio.Proofs.Template.Line
import Folio.Proofs.Template.Substitution
import Folio.Proofs.Text.Lines

/-!
# The source of a template

A tree of literals, expressions and loops can be written as a template: the braces of
literals doubled, expressions in braces, and loops between the tag that opens them and
`{end}`.  Such a text is cut into tokens piece by piece, on whatever lines the pieces
come to stand.
-/

namespace Folio.Template

/-! ## The source of a tree -/

def escapeBraces : List Char → List Char
  | [] => []
  | c :: cs => if c = '\x7b' ∨ c = '\x7d' then c :: c :: escapeBraces cs else c :: escapeBraces cs

def inBraces (e : Expr) : List Char :=
  '\x7b' :: (e.text.toList ++ ['\x7d'])

mutual

def nodeSource : Node → List Char
  | .literal text => escapeBraces text.toList
  | .expression e => inBraces e
  | .loop args body =>
    inBraces (.apply (.variable "foreach") args) ++ (nodesSource body ++ inBraces (.variable "end"))
termination_by structural node => node

/-- What is written for the nodes one after the other. -/
def nodesSource : List Node → List Char
  | [] => []
  | node :: nodes => nodeSource node ++ nodesSource nodes
termination_by structural nodes => nodes

end

def source (t : Template) : String :=
  String.ofList (nodesSource t)

/-- The trees that reading could yield: literals hold something and are apart, expressions
are no tags of blocks, and loops have a source. -/
inductive Normal : Template → Prop where
  | nil : Normal []
  | literal {text : String} {rest : Template} (present : text ≠ "")
      (apart : ∀ other, rest.head? ≠ some (.literal other)) (normal : Normal rest) : Normal (.literal text :: rest)
  | expression {e : Expr} {rest : Template} (printable : Printable e) (noBareLoop : e ≠ .variable "foreach")
      (noEnd : e ≠ .variable "end") (noLoop : ∀ args, e ≠ .apply (.variable "foreach") args)
      (normal : Normal rest) : Normal (.expression e :: rest)
  | loop {args : List Expr} {body rest : Template} (present : args ≠ []) (printable : ∀ e ∈ args, Printable e)
      (inside : Normal body) (normal : Normal rest) : Normal (.loop args body :: rest)

/-! ## Tokens of a source -/

/-- The tokens of a text whose first line has this number, where no brace is code. -/
def tokensFrom (index : ℕ) (s : List Char) : List Token :=
  linesTokens (fun _ _ => false) index (Text.linesOf s)

variable {index : ℕ} {c : Char} {s rest : List Char}

/-- Without code it makes no difference at which column a text begins. -/
theorem lineTokens_column (line column : ℕ) (s : List Char) :
    ∀ column', lineTokens (fun _ => false) line column s = lineTokens (fun _ => false) line column' s := by
  fun_induction lineTokens (fun _ => false) line column s with
  | case1 => intro column'; rw [lineTokens.eq_def]
  | case2 column c cs plain ih =>
    intro column'
    rw [lineTokens.eq_def _ _ column', ih (column' + c.utf8Size)]
    exact (if_pos plain).symm
  | case3 column syntactic =>
    intro column'
    rw [lineTokens.eq_def _ _ column']
    rfl
  | case4 column c brace opens =>
    intro column'
    rw [lineTokens.eq_def _ _ column']
    dsimp only
    rw [if_neg brace, if_neg opens]
  | case5 column c cs brace ih =>
    intro column'
    rw [lineTokens.eq_def _ _ column', ih (column' + 2)]
    dsimp only
    rw [if_neg brace, if_pos rfl]
  | case6 column d more brace other ih =>
    intro column'
    rw [lineTokens.eq_def _ _ column', ih (column' + 1)]
    dsimp only
    rw [if_neg brace, if_neg other, if_pos rfl]
  | case7 column c brace d more other opens lost =>
    intro column'
    rw [lineTokens.eq_def _ _ column']
    dsimp only
    rw [if_neg brace, if_neg other, if_neg opens]
    split
    · rfl
    · rename_i found
      rw [lost] at found
      contradiction
  | case8 column c brace d more other opens inner rest found shorter ih =>
    intro column'
    rw [lineTokens.eq_def _ _ column', ih (column' + Text.byteLength inner + 2)]
    dsimp only
    rw [if_neg brace, if_neg other, if_neg opens]
    split
    · rename_i lost
      rw [found] at lost
      contradiction
    · rename_i found'
      rw [found] at found'
      cases found'
      rfl

/-- Where the first characters of a line are cut in the same way whatever follows them, they
are cut so in a text. -/
theorem tokensFrom_append {s : List Char} (cut : ℕ → List Token) (present : s ≠ []) (oneLine : '\n' ∉ s)
    (cuts : ∀ line more, ∃ column, lineTokens (fun _ => false) line 0 (s ++ more) =
      cut line ++ lineTokens (fun _ => false) line column more) (index : ℕ) (rest : List Char) :
    tokensFrom index (s ++ rest) = cut (index + 1) ++ tokensFrom index rest := by
  obtain ⟨column, same⟩ := cuts (index + 1) ((Text.linesOf rest).headD [])
  rw [tokensFrom, Text.linesOf_append present oneLine, linesTokens, same, lineTokens_column _ column _ 0, tokensFrom]
  cases Text.linesOf rest with
  | nil => simp [linesTokens, lineTokens]
  | cons line lines => simp [linesTokens]

theorem tokensFrom_nil (index : ℕ) : tokensFrom index [] = [] := rfl

theorem tokensFrom_newline (index : ℕ) (rest : List Char) :
    tokensFrom index ('\n' :: rest) = .char '\n' :: tokensFrom (index + 1) rest := by
  rw [tokensFrom, Text.linesOf, if_pos rfl, linesTokens, lineTokens, if_pos (by decide), lineTokens]
  rfl

theorem tokensFrom_char {c : Char} (noOpen : c ≠ '\x7b') (noClose : c ≠ '\x7d') (sameLine : c ≠ '\n') (index : ℕ)
    (rest : List Char) : tokensFrom index (c :: rest) = .char c :: tokensFrom index rest :=
  tokensFrom_append (s := [c]) (fun _ => [.char c]) (by simp) (by simpa using sameLine.symm)
    (fun _ _ => ⟨0 + c.utf8Size, lineTokens_text (.inl ⟨noOpen, noClose⟩)⟩) index rest

theorem tokensFrom_brace {c : Char} (brace : c = '\x7b' ∨ c = '\x7d') (index : ℕ) (rest : List Char) :
    tokensFrom index (c :: c :: rest) = .char c :: tokensFrom index rest :=
  tokensFrom_append (s := [c, c]) (fun _ => [.char c]) (by simp) (by obtain rfl | rfl := brace <;> decide)
    (fun _ _ => ⟨0 + 2, lineTokens_doubled brace rfl⟩) index rest

theorem tokensFrom_tag {s : List Char} (passes : Passes s) (oneLine : '\n' ∉ s) (single : s.head? ≠ some '\x7b')
    (index : ℕ) (rest : List Char) :
    tokensFrom index ('\x7b' :: (s ++ ['\x7d']) ++ rest) = .substitution (index + 1) s :: tokensFrom index rest := by
  refine tokensFrom_append (fun line => [.substitution line s]) (by simp) (by simp [oneLine])
    (fun line more => ⟨0 + Text.byteLength s + 2, ?_⟩) index rest
  -- The brace that closes is the one that was written: those before it stand in quotes.
  have found : splitAtBrace none (s ++ '\x7d' :: more) = some (s, more) := by
    rw [passes, splitAtBrace, if_pos rfl]
    simp
  rw [List.cons_append, List.append_assoc, List.singleton_append]
  exact lineTokens_substitution single rfl found

theorem tokensFrom_inner {s : List Char} (inner : Inner s) (index : ℕ) (rest : List Char) :
    tokensFrom index ('\x7b' :: (s ++ ['\x7d']) ++ rest) = .substitution (index + 1) s :: tokensFrom index rest :=
  tokensFrom_tag inner.passes inner.oneLine (fun first => (inner.first _ first).2 rfl) index rest

end Folio.Template
