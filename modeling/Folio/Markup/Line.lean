import Folio.Text.Punctuation

/-!
# Lines of a document

Which block a line begins is seen from its first characters.  A tab goes to the next
column divisible by four, and a container may take only some of the columns of a tab, so
a line is read through a cursor that knows its column.
-/

namespace Folio.Markup

def isLineSpace (c : Char) : Bool :=
  c == ' ' || c == '\t' || c == '\x0b' || c == '\x0c'

/-- A space or a tab, which are what the indentation of a line is made of. -/
def isIndentation (c : Char) : Bool :=
  c == ' ' || c == '\t'

def isSpace (c : Char) : Bool :=
  isLineSpace c || c == '\n'

def isBlankLine (cs : List Char) : Bool :=
  cs.all isLineSpace

def trimLineEnd (cs : List Char) : List Char :=
  (cs.reverse.dropWhile isSpace).reverse

/-- A place in a line: the characters from there on, the column, and the columns before
them that belong to a tab of which some columns are taken. -/
structure Cursor where
  rest : List Char
  column : Nat
  pending : Nat
  deriving DecidableEq, Repr, Inhabited

namespace Cursor

def ofLine (line : List Char) : Cursor :=
  ⟨line, 0, 0⟩

/-- Goes over characters that are neither spaces nor tabs.  Columns of a tab before them
that are not taken stay to be taken after them. -/
def skip (count : Nat) (cursor : Cursor) : Cursor :=
  ⟨cursor.rest.drop count, cursor.column + count, cursor.pending⟩

def tabWidth (column : Nat) : Nat :=
  4 - column % 4

/-- Takes at most `count` columns of spaces and tabs off the text, which begins at
`column`: the number taken, and where that leads. -/
def takeColumnsOf (count column : Nat) : List Char → Nat × Cursor
  | ' ' :: cs =>
    if count = 0 then (0, ⟨' ' :: cs, column, 0⟩)
    else
      let (taken, cursor) := takeColumnsOf (count - 1) (column + 1) cs
      (taken + 1, cursor)
  | '\t' :: cs =>
    if count = 0 then (0, ⟨'\t' :: cs, column, 0⟩)
    else
      let width := tabWidth column
      if count < width then (count, ⟨cs, column + width, width - count⟩)
      else
        let (taken, cursor) := takeColumnsOf (count - width) (column + width) cs
        (taken + width, cursor)
  | cs => (0, ⟨cs, column, 0⟩)

/-- Takes at most `count` columns of spaces and tabs: the number taken, and where that
leads. -/
def takeColumns (count : Nat) (cursor : Cursor) : Nat × Cursor :=
  if count ≤ cursor.pending then (count, { cursor with pending := cursor.pending - count })
  else
    let (taken, after) := takeColumnsOf (count - cursor.pending) cursor.column cursor.rest
    (cursor.pending + taken, after)

def takeColumns? (count : Nat) (cursor : Cursor) : Option Cursor :=
  let (taken, after) := cursor.takeColumns count
  if taken = count then some after else none

def indented (cursor : Cursor) : List Char :=
  cursor.rest.dropWhile isIndentation

def isBlank (cursor : Cursor) : Bool :=
  isBlankLine cursor.rest

/-- The characters from the cursor on, with a space for each column of a tab that is
partly taken. -/
def remainder (cursor : Cursor) : List Char :=
  List.replicate cursor.pending ' ' ++ cursor.rest

/-- Goes over the mark of a quotation: at most three spaces, `>`, and a space if one
follows. -/
def quoteMark? (cursor : Cursor) : Option Cursor :=
  let (_, inner) := cursor.takeColumns 3
  match inner.rest with
  | '>' :: _ => some ((inner.skip 1).takeColumns 1).2
  | _ => none

end Cursor

/-! ## What a line begins

These look at a line after its indentation.
-/

/-- The line is a rule: three or more of one of the marks, with nothing but spaces
between them. -/
def isRule (cs : List Char) : Bool :=
  match cs with
  | mark :: _ =>
    (mark == '*' || mark == '-' || mark == '_') &&
      cs.all (fun c => c == mark || c == ' ' || c == '\t') && 3 ≤ cs.count mark
  | [] => false

/-- The level of the heading that the line is: one to six `#`, and then a space or the
end. -/
def headingLevel? (cs : List Char) : Option Nat :=
  let level := (cs.takeWhile (· == '#')).length
  if 1 ≤ level ∧ level ≤ 6 then
    match cs.drop level with
    | [] => some level
    | c :: _ => if isLineSpace c then some level else none
  else none

/-- The running text of a heading, without the marks of its level at the front, the spaces at
the end, and the marks that may close it after a space. -/
def headingText (level : Nat) (cs : List Char) : List Char :=
  let body := ((cs.drop level).dropWhile isLineSpace)
  let open_ := (body.reverse.dropWhile (· == ' '))
  let closed := open_.dropWhile (· == '#')
  match closed with
  | [] => []
  | ' ' :: _ => (closed.dropWhile (· == ' ')).reverse
  | _ => open_.reverse

/-- The level of the heading that the paragraph above the line becomes. -/
def underlineLevel? (cs : List Char) : Option Nat :=
  match cs with
  | mark :: _ =>
    if (mark = '=' ∨ mark = '-') ∧ isBlankLine (cs.dropWhile (· == mark)) then
      some (if mark = '=' then 1 else 2)
    else none
  | [] => none

/-- The line that begins a block of code: its mark, how often it stands there, and the
label after it. -/
structure Fence where
  mark : Char
  length : Nat
  label : List Char
  deriving DecidableEq, Repr

/-- Three or more backticks, with none in the label, or three or more tildes. -/
def fence? (cs : List Char) : Option Fence :=
  match cs with
  | mark :: _ =>
    let length := (cs.takeWhile (· == mark)).length
    let label := cs.drop length
    if (mark = '\x60' ∨ mark = '~') ∧ 3 ≤ length ∧ ¬(mark = '\x60' ∧ label.contains '\x60') then
      some ⟨mark, length, trimLineEnd (label.dropWhile isLineSpace)⟩
    else none
  | [] => none

/-- The line ends the code that the fence began: nothing but spaces follows its marks. -/
def Fence.endsAt (fence : Fence) (cs : List Char) : Bool :=
  let run := cs.takeWhile (· == fence.mark)
  fence.length ≤ run.length && (cs.drop run.length).all (· == ' ')

/-- What marks the items of a list: a bullet, or a number and the character after it. -/
inductive Marker where
  | bullet (mark : Char)
  | number (value : Nat) (mark : Char)
  deriving DecidableEq, Repr, Inhabited

namespace Marker

/-- The character by which the items of one list agree. -/
def mark : Marker → Char
  | .bullet mark => mark
  | .number _ mark => mark

def number? : Marker → Option Nat
  | .bullet _ => none
  | .number value _ => some value

/-- An item with this marker may follow a paragraph without a blank line: a bullet, or the
number 1. -/
def interrupts : Marker → Bool
  | .bullet _ => true
  | .number value _ => value == 1

end Marker

/-- The marker of a list at the front of the line, the characters that it takes, and what
follows: a space or the end of the line. -/
def marker? (cs : List Char) : Option (Marker × Nat × List Char) :=
  let ended : List Char → Bool
    | [] => true
    | c :: _ => isIndentation c
  match cs with
  | [] => none
  | c :: rest =>
    if c = '-' ∨ c = '+' ∨ c = '*' then
      if ended rest && !isRule cs then some (.bullet c, 1, rest) else none
    else
      let digits := cs.takeWhile Char.isDigit
      match cs.drop digits.length with
      | mark :: rest =>
        if 1 ≤ digits.length ∧ digits.length ≤ 9 ∧ (mark = '.' ∨ mark = ')') ∧ ended rest then
          some (.number (digits.foldl (fun n c => n * 10 + (c.toNat - '0'.toNat)) 0) mark,
            digits.length + 1, rest)
        else none
      | [] => none

/-- Goes over the check box of a task, `[ ]` or `[x]`, after which a space stands. -/
def checkBox? (cursor : Cursor) : Option (Bool × Cursor) :=
  let (_, inner) := cursor.takeColumns 3
  match inner.rest with
  | '[' :: state :: ']' :: space :: _ =>
    if isLineSpace space then
      if isLineSpace state then some (false, inner.skip 3)
      else if state = 'x' ∨ state = 'X' then some (true, inner.skip 3)
      else none
    else none
  | _ => none

end Folio.Markup
