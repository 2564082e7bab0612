import Folio.Markup.Draft

/-!
# Tables

A table is a line of column heads, a line that says how the columns are aligned
(`|:--|--:|`), and a line for each row.  Pipes part the cells of a line; a pipe with a
backslash before it belongs to its cell.
-/

namespace Folio.Markup

/-- The number of pipes that part cells.  `previous` is the character before. -/
def countPipes (previous : Char) : List Char → Nat
  | [] => 0
  | c :: cs => (if c = '|' ∧ previous ≠ '\\' then 1 else 0) + countPipes c cs

/-- The text up to the first pipe that parts cells, and what begins with that pipe.
`previous` is the character before. -/
def splitAtPipe (previous : Char) : List Char → List Char × List Char
  | [] => ([], [])
  | c :: cs =>
    if c = '|' ∧ previous ≠ '\\' then ([], c :: cs)
    else
      let (cell, rest) := splitAtPipe c cs
      (c :: cell, rest)

/-- The content of a cell: without the spaces around it, and with its pipes as they are
read. -/
def cellText (cs : List Char) : List Char :=
  let rec pipes : List Char → List Char
    | '\\' :: '|' :: rest => '|' :: pipes rest
    | c :: rest => c :: pipes rest
    | [] => []
  pipes (trimLineEnd (cs.dropWhile isLineSpace))

/-- The cells that stand on a line, in at most `fuel` cells. -/
def cellsWith : (fuel : Nat) → List Char → List (List Char)
  | 0, _ => []
  | fuel + 1, cs =>
    let body := match cs with
      | '|' :: rest => rest
      | _ => cs
    if isBlankLine body then []
    else
      let (cell, rest) := splitAtPipe ' ' (body.dropWhile isLineSpace)
      cellText cell :: cellsWith fuel rest

def cellsOn (cs : List Char) : List (List Char) :=
  cellsWith (cs.length + 1) cs

/-- The cells of a line, brought to the number of columns. -/
def cells (columns : Nat) (cs : List Char) : List (List Char) :=
  let found := (cellsOn cs).take columns
  found ++ List.replicate (columns - found.length) []

/-- The number of columns of a line of heads, if a pipe is in it. -/
def headColumns? (cs : List Char) : Option Nat :=
  let pipes := countPipes ' ' cs
  if pipes = 0 then none
  else
    let before := if cs.head? = some '|' then 1 else 0
    let trimmed := (trimLineEnd cs).reverse
    let after := match trimmed with
      | '|' :: '\\' :: _ => 1
      | '|' :: _ => 0
      | _ => 1
    some (pipes - before + after)

/-- The alignment of a column: the first of its marks may be a colon, and so may a later
one. -/
def alignment (cs : List Char) : Alignment :=
  match cs.filter (· != ' ') with
  | [] => .unset
  | first :: later =>
    match first == ':', later.contains ':' with
    | true, true => .center
    | true, false => .left
    | false, true => .right
    | false, false => .unset

/-- The alignments of the columns, if the line is one that gives them: hyphens, colons and
pipes, indented by three spaces at most.  There is a pipe, and a hyphen in each column that a
pipe ends; a column without a pipe after it counts if there is anything in it. -/
def alignments? (cs : List Char) : Option (List Alignment) :=
  let marks := cs.dropWhile (· == ' ')
  if cs.length ≤ marks.length + 3 ∧ cs.contains '|' ∧ cs.contains '-' ∧
      cs.all (fun c => c == ' ' || c == '-' || c == ':' || c == '|') then
    let body := match marks with
      | '|' :: rest => rest
      | _ => marks
    let columns := (String.ofList body).splitOn "|" |>.map String.toList
    let ended := columns.dropLast
    let last := (columns.getLast?.getD []).filter (· != ' ')
    if ended.all (·.contains '-') then
      some ((if last.isEmpty then ended else columns).map alignment)
    else none
  else none

end Folio.Markup
