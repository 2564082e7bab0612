import Folio.Expr.Parser
import Folio.Template.Code
import Folio.Text.Blank

/-!
# Templates

Text with substitutions in braces.  `{expr}` stands for the value of an expression,
`{foreach source name}` up to its `{end}` is repeated for every element of a list, and
a doubled brace stands for a single one.

A text is cut into tokens, line by line; a builder then nests the loops.  Faults name
the line, from 1.
-/

namespace Folio

open Text (linesOf trimChars)

/-- A piece of a template. -/
inductive Node where
  | literal (text : String)
  | expression (e : Expr)
  /-- The source of the elements and perhaps a name for them, and what is repeated. -/
  | loop (args : List Expr) (body : List Node)

abbrev Template := List Node

namespace Template

/-! ## Tokens -/

/-- What a template is made of before loops are nested. -/
inductive Token where
  /-- A character of the text itself. -/
  | char (c : Char)
  /-- What stands between braces, and on which line. -/
  | substitution (line : Nat) (inner : List Char)
  /-- A brace that nothing on its line closes. -/
  | openBrace (line : Nat)
  deriving DecidableEq, Repr

def putFirst (c : Char) (texts : List Char × List Char) : List Char × List Char :=
  (c :: texts.1, texts.2)

/-- What stands before the next closing brace that is not in quotes, and what follows
that brace.  `quote` is the quote that is open. -/
def splitAtBrace : (quote : Option Char) → List Char → Option (List Char × List Char)
  | _, [] => none
  | some q, c :: cs => (splitAtBrace (if c = q then none else some q) cs).map (putFirst c)
  | none, c :: cs =>
    if c = '\x7d' then some ([], cs)
    else (splitAtBrace (if isQuote c then some c else none) cs).map (putFirst c)

theorem length_of_splitAtBrace {quote : Option Char} {cs inner rest : List Char}
    (h : splitAtBrace quote cs = some (inner, rest)) : rest.length < cs.length := by
  induction cs generalizing quote inner with
  | nil => cases quote <;> simp [splitAtBrace] at h
  | cons c cs ih =>
    have step {q : Option Char} (h : (splitAtBrace q cs).map (putFirst c) = some (inner, rest)) :
        rest.length < (c :: cs).length := by
      obtain ⟨⟨i, r⟩, found, same⟩ := Option.map_eq_some_iff.1 h
      simp only [putFirst, Prod.mk.injEq] at same
      obtain ⟨_, rfl⟩ := same
      exact Nat.lt_succ_of_lt (ih found)
    cases quote with
    | some q => exact step h
    | none =>
      rw [splitAtBrace] at h
      split at h
      · simp_all
      · exact step h

/-- The tokens of a line from `column` on.  A brace in code is text, a doubled brace is
one brace, and a closing brace by itself is text. -/
def lineTokens (isCode : Nat → Bool) (line column : Nat) : List Char → List Token
  | [] => []
  | c :: cs =>
    if (c ≠ '\x7b' ∧ c ≠ '\x7d') ∨ isCode column then
      .char c :: lineTokens isCode line (column + c.utf8Size) cs
    else
      match cs with
      | [] => if c = '\x7d' then [.char c] else [.openBrace line]
      | d :: more =>
        if d = c then .char c :: lineTokens isCode line (column + 2) more
        else if c = '\x7d' then .char c :: lineTokens isCode line (column + 1) (d :: more)
        else
          match found : splitAtBrace none (d :: more) with
          | none => [.openBrace line]
          | some (inner, rest) =>
            have := length_of_splitAtBrace found
            .substitution line inner ::
              lineTokens isCode line (column + Text.byteLength inner + 2) rest
termination_by cs => cs.length
decreasing_by all_goals simp_wf <;> simp_all <;> omega

def linesTokens (isCode : Nat → Nat → Bool) (index : Nat) : List (List Char) → List Token
  | [] => []
  | line :: lines =>
    lineTokens (isCode index) (index + 1) 0 line ++ linesTokens isCode (index + 1) lines

def tokens (isCode : Nat → Nat → Bool) (text : String) : List Token :=
  linesTokens isCode 0 (linesOf text.toList)

/-! ## Nesting -/

/-- A loop that is open: its arguments, and the nodes before it, last first. -/
structure OpenLoop where
  args : List Expr
  before : List Node

/-- The nodes and the characters read so far at this depth, last first, and the loops
around them, innermost first. -/
structure Builder where
  nodes : List Node
  pending : List Char
  opened : List OpenLoop

def Builder.start : Builder := ⟨[], [], []⟩

/-- The nodes with the pending characters as a literal, last first. -/
def Builder.flushed (b : Builder) : List Node :=
  if b.pending.isEmpty then b.nodes else .literal (String.ofList b.pending.reverse) :: b.nodes

/-- What an expression in braces means to a template. -/
inductive Tag where
  | substitute (e : Expr)
  | openLoop (args : List Expr)
  | bareLoop
  | closeLoop

def Tag.ofExpr : Expr → Tag
  | .apply (.variable name) args =>
    if name = "foreach" then .openLoop args else .substitute (.apply (.variable name) args)
  | .variable name =>
    if name = "foreach" then .bareLoop
    else if name = "end" then .closeLoop
    else .substitute (.variable name)
  | e => .substitute e

def Builder.add (b : Builder) (line : Nat) (e : Expr) : Except FormatFault Builder :=
  match Tag.ofExpr e with
  | .openLoop args => .ok ⟨[], [], ⟨args, b.flushed⟩ :: b.opened⟩
  | .bareLoop => .error (.loopWithoutSource line)
  | .closeLoop =>
    match b.opened with
    | [] => .error (.endWithoutLoop line)
    | loop :: around => .ok ⟨.loop loop.args b.flushed.reverse :: loop.before, [], around⟩
  | .substitute e => .ok ⟨.expression e :: b.flushed, [], b.opened⟩

/-- The word before which `:` may stand in for a blank. -/
def loopWord : List Char := "foreach:".toList

/-- The expression that the text between braces stands for: `/` is short for `end`. -/
def expressionText (inner : List Char) : List Char :=
  let trimmed := trimChars inner
  if trimmed = ['/'] then "end".toList
  else if trimmed.take loopWord.length = loopWord then
    "foreach ".toList ++ trimmed.drop loopWord.length
  else trimmed

def Builder.step (b : Builder) : Token → Except FormatFault Builder
  | .char c => .ok { b with pending := c :: b.pending }
  | .openBrace line => .error (.openBrace line)
  | .substitution line inner =>
    match Expr.parse .list (String.ofList (expressionText inner)) with
    | .error fault => .error (.substitution line fault)
    | .ok e => b.add line e

def Builder.run (b : Builder) : List Token → Except FormatFault Builder
  | [] => .ok b
  | token :: more =>
    match b.step token with
    | .error fault => .error fault
    | .ok b => b.run more

def Builder.finish (b : Builder) : Except FormatFault Template :=
  if b.opened.isEmpty then .ok b.flushed.reverse else .error (.openLoops b.opened.length)

/-- Reads a template; `isCode` says which positions, by line and byte column, are code. -/
def parseWith (isCode : Nat → Nat → Bool) (text : String) : Except FormatFault Template :=
  match Builder.start.run (tokens isCode text) with
  | .ok b => b.finish
  | .error fault => .error fault

def parse (text : String) : Except FormatFault Template :=
  parseWith (fun _ _ => false) text

/-- Reads the body of a document, in which braces in code are text. -/
def parseMarkdown (text : String) : Except FormatFault Template :=
  parseWith (CodeFragments.scan text).contains text

end Template

end Folio
