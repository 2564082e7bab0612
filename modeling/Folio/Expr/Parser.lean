import Folio.Calendar.Reading
import Folio.Expr.Printer
import Folio.Fault
import Folio.Text.Letter

/-!
# Reading expressions

One pass over the characters, with the open brackets on a stack.  Terms are quoted
literals, brackets, and bare tokens.  The `ExprForm` of the innermost open bracket, or
of the whole text, says which characters are skipped between terms and which end a
bare token; at the end the form of the whole text says what its terms add up to.
-/

namespace Folio

open Text (isBlank trimEndChars isAlphabetic isAlphanumeric)

/-- How a text is cut into terms, and what the terms add up to. -/
inductive ExprForm where
  /-- Terms between blanks; the first is applied to the others, and one alone stands for
  itself. -/
  | list
  /-- Terms between commas; always an array. -/
  | array
  /-- Terms between commas; one alone stands for itself. -/
  | laxArray
  /-- One term that ends at a blank. -/
  | single
  /-- One term that runs to the end of the text. -/
  | line
  deriving DecidableEq, Repr

def isBracket (c : Char) : Bool :=
  c == '(' || c == ')' || c == '[' || c == ']'

def isQuote (c : Char) : Bool :=
  c == '\'' || c == '"'

namespace ExprForm

def isIdle (form : ExprForm) (c : Char) : Bool :=
  match form with
  | .array | .laxArray => isBlank c || c == ','
  | .list | .single | .line => isBlank c

def isTerminator (form : ExprForm) (c : Char) : Bool :=
  match form with
  | .array | .laxArray => c == ',' || isBracket c
  | .list | .single => isBlank c || isBracket c
  | .line => false

def continues (form : ExprForm) (c : Char) : Bool :=
  !form.isTerminator c

end ExprForm

/-! ## Bare tokens -/

/-- A name: a letter or `_`, then letters, digits, `_` and dots. -/
def isIdentifier : List Char → Bool
  | [] => false
  | c :: cs =>
    (isAlphabetic c || c == '_') && cs.all fun c => isAlphanumeric c || c == '_' || c == '.'

/-- A number with a point or an exponent, or one too large for an integer. -/
def readFloatLiteral? (token : List Char) : Option Float :=
  let (negative, body) := Decimal.splitSign token
  (Decimal.readDecimal? body).map fun x => if negative then -x else x

/-- What a bare token stands for: the first that fits of a truth value, an integer, a
float, a name, a date and a string. -/
def classify (token : List Char) : Expr :=
  let lower := token.map Char.toLower
  if lower = "true".toList then .value (.bool true)
  else if lower = "false".toList then .value (.bool false)
  else
    match Decimal.readInt64? token with
    | some i => .value (.int i)
    | none =>
      match readFloatLiteral? token with
      | some x => .value (.float x)
      | none =>
        if isIdentifier token then .variable (String.ofList token)
        else
          match Calendar.readTimestamp? token with
          | some t => .value (.date t)
          | none => .value (.str (String.ofList token))

/-! ## Brackets -/

inductive Bracket where
  | round
  | square
  deriving DecidableEq, Repr

namespace Bracket

def closer : Bracket → Char
  | .round => ')'
  | .square => ']'

def form : Bracket → ExprForm
  | .round => .list
  | .square => .array

end Bracket

/-- The first term applied to the others; one term stands for itself. -/
def applyTerms : List Expr → Except ExprFault Expr
  | [] => .error .empty
  | [term] => .ok term
  | function :: args => .ok (.apply function args)

def Bracket.close (b : Bracket) (terms : List Expr) : Except ExprFault Expr :=
  match b with
  | .round => applyTerms terms
  | .square => .ok (.array terms)

/-- What the terms of a whole text add up to. -/
def ExprForm.close (form : ExprForm) (terms : List Expr) : Except ExprFault Expr :=
  match form, terms with
  | _, [] => .error .empty
  | .list, terms => applyTerms terms
  | .array, [.array items] => .ok (.array items)
  | .array, terms => .ok (.array terms)
  | .laxArray, [term] => .ok term
  | .laxArray, terms => .ok (.array terms)
  | .single, [term] => .ok term
  | .line, [term] => .ok term
  | .single, _ => .error .notSingle
  | .line, _ => .error .notSingle

/-! ## The scan -/

/-- A bracket that is open, and the terms that were read before it, last first. -/
structure OpenBracket where
  bracket : Bracket
  before : List Expr

/-- The form by which characters are read at this depth. -/
def currentForm (outer : ExprForm) : List OpenBracket → ExprForm
  | [] => outer
  | o :: _ => o.bracket.form

/-- The characters up to the next quote of this kind, and those after it. -/
def splitAtQuote (quote : Char) : List Char → Option (List Char × List Char)
  | [] => none
  | c :: cs =>
    if c = quote then some ([], cs)
    else (splitAtQuote quote cs).map fun (literal, rest) => (c :: literal, rest)

theorem length_of_splitAtQuote {quote : Char} {cs literal rest : List Char}
    (h : splitAtQuote quote cs = some (literal, rest)) : rest.length < cs.length := by
  induction cs generalizing literal with
  | nil => simp [splitAtQuote] at h
  | cons c cs ih =>
    rw [splitAtQuote] at h
    split at h
    · simp_all
    · obtain ⟨⟨l, r⟩, found, same⟩ := Option.map_eq_some_iff.1 h
      simp only [Prod.mk.injEq] at same
      obtain ⟨_, rfl⟩ := same
      exact Nat.lt_succ_of_lt (ih found)

theorem length_dropWhile_le (p : Char → Bool) (cs : List Char) :
    (cs.dropWhile p).length ≤ cs.length := by
  induction cs with
  | nil => simp
  | cons c cs ih =>
    rw [List.dropWhile_cons]
    split
    · exact Nat.le_succ_of_le ih
    · exact Nat.le_refl _

/-- Reads the terms of a text.  `terms` are those read so far at this depth, last first,
and `opened` the brackets around them, innermost first. -/
def scan (outer : ExprForm) (terms : List Expr) (opened : List OpenBracket) :
    List Char → Except ExprFault (List Expr)
  | [] => if opened.isEmpty then .ok terms.reverse else .error .openBracket
  | c :: cs =>
    if (currentForm outer opened).isIdle c then scan outer terms opened cs
    else if isQuote c then
      match found : splitAtQuote c cs with
      | none => .error .openQuote
      | some (literal, rest) =>
        have : rest.length < cs.length := length_of_splitAtQuote found
        scan outer (.value (.str (String.ofList literal)) :: terms) opened rest
    else if c = '(' then scan outer [] (⟨.round, terms⟩ :: opened) cs
    else if c = '[' then scan outer [] (⟨.square, terms⟩ :: opened) cs
    else if c = ')' ∨ c = ']' then
      match opened with
      | ⟨bracket, before⟩ :: around =>
        if bracket.closer = c then
          match bracket.close terms.reverse with
          | .ok term => scan outer (term :: before) around cs
          | .error fault => .error fault
        else .error (.strayCloser c)
      | [] => .error (.strayCloser c)
    else
      have := length_dropWhile_le (currentForm outer opened).continues cs
      scan outer
        (classify (trimEndChars (c :: cs.takeWhile (currentForm outer opened).continues)) :: terms)
        opened (cs.dropWhile (currentForm outer opened).continues)
termination_by cs => cs.length
decreasing_by all_goals simp_wf <;> omega

/-- Reads an expression; a fault does not yet say in which text. -/
def ExprForm.read (form : ExprForm) (cs : List Char) : Except ExprFault Expr :=
  match scan form [] [] cs with
  | .ok terms => form.close terms
  | .error fault => .error fault

def Expr.parse (form : ExprForm) (text : String) : Except FormatFault Expr :=
  match form.read text.toList with
  | .ok e => .ok e
  | .error fault => .error (.expression text fault)

end Folio
