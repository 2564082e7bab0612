import Folio.Markup.RawHtml
import Folio.Markup.Table
import Folio.Text.Lines

/-!
# The blocks of a document

A block begins with a line that the open containers go on in, or that ends some of them,
and takes as many of the next lines as belong to it.  Most blocks take only lines on which
all their containers go on; a paragraph also takes a line that leaves the marks out, unless
another block begins on it.
-/

namespace Folio.Markup

open Text (linesOf)

/-! ## The lines of each kind of block -/

/-- The lines of indented code at the front, each with whether it is blank, and the lines
after them. -/
def indentedLines (frames : List Frame) : List Line → List (List Char × Bool) × List Line
  | [] => ([], [])
  | line :: lines =>
    match within? frames line with
    | none => ([], line :: lines)
    | some cursor =>
      let (taken, inner) := cursor.takeColumns 4
      if taken = 4 ∨ inner.rest = [] then
        let (more, rest) := indentedLines frames lines
        ((line.close inner.remainder, inner.isBlank) :: more, rest)
      else ([], line :: lines)

/-- The lines of code up to the fence that ends it, each without `indent` columns of
indentation, and the lines after it.  Where the text ends with a piece of indentation, that
ends the code like a fence. -/
def fencedLines (frames : List Frame) (fence : Fence) (indent : Nat) :
    List Line → List (List Char) × List Line
  | [] => ([], [])
  | line :: lines =>
    match within? frames line with
    | none => ([], line :: lines)
    | some cursor =>
      let (outer, last) := cursor.takeColumns 4
      if outer < 4 ∧ (fence.endsAt last.rest ∨ (last.rest = [] ∧ !line.ended)) then ([], lines)
      else
        let (_, inner) := cursor.takeColumns indent
        let (more, rest) := fencedLines frames fence indent lines
        (line.close inner.remainder :: more, rest)

def holds (mark : String) (cs : List Char) : Bool :=
  (afterFirst? mark.toList cs).isSome

/-- The lines of HTML after the first, and the lines after them.  `previous` is the line
before.  Indentation at the end of the text is no line of it. -/
def htmlLines (frames : List Frame) (ending : HtmlEnd) (previous : List Char) :
    List Line → List (List Char) × List Line
  | [] => ([], [])
  | line :: lines =>
    match within? frames line with
    | none => ([], line :: lines)
    | some cursor =>
      let done := match ending with
        | .at mark => holds mark previous || (cursor.rest.isEmpty && !line.ended)
        | .blank => cursor.isBlank
      if done then ([], line :: lines)
      else
        let (more, rest) := htmlLines frames ending cursor.rest lines
        (line.close cursor.remainder :: more, rest)

/-- Another block begins on the line, so that no paragraph goes on.  `inside` says that all
containers of the paragraph go on. -/
def interrupts (inside : Bool) (cs : List Char) : Bool :=
  isRule cs || (headingLevel? cs).isSome || (fence? cs).isSome || cs.head? == some '>' ||
    (htmlBlock? true cs).isSome ||
    match marker? cs with
    | some (marker, _, rest) => !inside || (marker.interrupts && !isBlankLine rest)
    | none => false

/-- The alignments of the columns of the table whose line of heads is `cs`, if the next line
gives those of as many columns. -/
def tableColumns? (frames : List Frame) (cs : List Char) (lines : List Line) :
    Option (List Alignment) := do
  let columns ← headColumns? cs
  let next ← lines.head?
  let cursor ← within? frames next
  let found ← alignments? cursor.rest
  if found.length = columns then some found else none

/-- A table begins on the line though a paragraph is open: a pipe is the first character of
its heads. -/
def interruptsWithTable (frames : List Frame) (cs : List Char) (lines : List Line) : Bool :=
  cs.head? == some '|' && (tableColumns? frames cs lines).isSome

/-- What a line says that goes on with the paragraph before it: where the marks of its
containers end, which may be fewer than those of the paragraph.  `lines` are the lines after
it. -/
def continued? (frames : List Frame) (line : Line) (lines : List Line) : Option Cursor :=
  let (count, cursor) := matchFrames frames.reverse (.ofLine line.chars)
  let (indent, inner) := cursor.takeColumns 4
  if indent < 4 ∧
      (inner.rest = [] ∨ interrupts (count == frames.length) inner.rest ∨
        interruptsWithTable frames inner.rest lines) then
    none
  else some cursor

/-- The level of the heading that the line makes of the paragraph before it. -/
def underlined? (frames : List Frame) (line : Line) : Option Nat := do
  let cursor ← within? frames line
  let (indent, inner) := cursor.takeColumns 4
  if indent < 4 then underlineLevel? inner.rest else none

/-- How the lines of a paragraph end: as a paragraph, or as a heading of a level. -/
abbrev ParagraphEnd := Option Nat

def Line.before (line : Line) (cursor : Cursor) : List Char :=
  line.chars.take (line.chars.length - cursor.rest.length)

/-- The lines of a paragraph after the first, each as its margin and its text, how the
paragraph ends, and the lines after it. -/
def paragraphLines (frames : List Frame) :
    List Line → List (List Char × List Char) × ParagraphEnd × List Line
  | [] => ([], none, [])
  | line :: lines =>
    match underlined? frames line, continued? frames line lines with
    | some level, _ => ([], some level, lines)
    | none, none => ([], none, line :: lines)
    | none, some cursor =>
      if cursor.indented = [] then ([], none, line :: lines)
      else
        let (more, ending, rest) := paragraphLines frames lines
        ((line.before cursor, cursor.rest) :: more, ending, rest)

/-- The lines after its first that a definition may stand on. -/
def definitionLines (frames : List Frame) : List Line → List (List Char)
  | [] => []
  | line :: lines =>
    match continued? frames line lines with
    | none => []
    | some cursor =>
      let (indent, inner) := cursor.takeColumns 4
      if indent < 4 ∧ (underlineLevel? inner.rest).isSome then []
      else inner.rest :: definitionLines frames lines

/-- The rows of a table, and the lines after them.  Every block ends a table, even an item
with nothing in it, and so does a line without a cell. -/
def tableRows (frames : List Frame) (columns : Nat) :
    List Line → List (List (List Char)) × List Line
  | [] => ([], [])
  | line :: lines =>
    match within? frames line with
    | none => ([], line :: lines)
    | some cursor =>
      let row := cursor.indented
      if interrupts false row ∨ cellsOn row = [] then ([], line :: lines)
      else
        let (more, rest) := tableRows frames columns lines
        (cells columns row :: more, rest)

/-- The table whose line of heads is `cs`, and the lines after it.  A backslash at the end of
the heads breaks the line, so that they are none. -/
def table? (frames : List Frame) (cs : List Char) (lines : List Line) :
    Option (Block × List Line) :=
  if (cs.reverse.takeWhile (· == '\\')).length % 2 = 1 then none
  else
    (tableColumns? frames cs lines).map fun columns =>
      let (rows, rest) := tableRows frames columns.length lines.tail
      (.table columns (cells columns.length cs) rows, rest)

/-! ## Containers that begin -/

/-- Opens the containers that begin on the line, in at most `fuel` steps: the draft, where
their marks end, and whether that is all there is on the line. -/
def openContainers : (fuel : Nat) → Draft → Cursor → Draft × Cursor × Bool
  | 0, draft, cursor => (draft, cursor, false)
  | fuel + 1, draft, cursor =>
    let (indent, inner) := cursor.takeColumns 4
    if indent = 4 then (draft, cursor, false)
    else
      match marker? inner.rest with
      | some (marker, width, _) =>
        let (_, after) := (inner.skip width).takeColumns 1
        let base := indent + width + 1
        if after.isBlank then
          ({ draft.beginItem marker base with bareItem := true }, after, true)
        else
          let (extra, deeper) := after.takeColumns 4
          let (draft, start) :=
            if extra < 4 then (draft.beginItem marker (base + extra), deeper)
            else (draft.beginItem marker base, after)
          match checkBox? start with
          | some (checked, afterBox) =>
            if afterBox.isBlank then
              ({ draft.add (.task checked) with bareItem := true }, afterBox, true)
            else openContainers fuel { draft with task := some checked } afterBox
          | none => openContainers fuel draft start
      | none =>
        match inner.quoteMark? with
        | some after => openContainers fuel (draft.endList.push (.quote [])) after
        | none => (draft, cursor, false)

/-! ## Blocks -/

def joined (lines : List (List Char)) : String :=
  String.ofList lines.flatten

/-- Running text whose first line is `first`, and whose other lines have margins, without the
spaces at the end of its last line. -/
def runningText (first : List Char) (more : List (List Char × List Char)) : Source :=
  let text := List.intercalate ['\n'] (first :: more.map Prod.snd)
  ⟨(text.reverse.dropWhile isLineSpace).reverse, more.map Prod.fst, false⟩

/-- The definition that begins with the line `cs`: its label and target, and how many of the
lines after that line belong to it. -/
def definitionAt? (frames : List Frame) (cs : List Char) (lines : List Line) :
    Option (List Char × Target × Nat) :=
  let text := List.intercalate ['\n'] (cs :: definitionLines frames lines)
  (definition? text).map fun (label, target, after) =>
    (label, target, (linesOf (text.take (text.length - after.length))).length - 1)

/-- The text at the cursor without its indentation, unless that is all there is. -/
def textAt (cursor : Cursor) : List Char :=
  if cursor.indented.isEmpty then cursor.rest else cursor.indented

/-- Adds the running text whose first line is `cs`; the lines after it.  Definitions may
stand in front of it, and what follows them goes on as a paragraph does. -/
def addText (draft : Draft) (cs : List Char) (lines : List Line) : Draft × List Line :=
  match if cs.head? == some '[' then definitionAt? draft.frames cs lines else none with
  | some (label, target, taken) =>
    let defined := draft.define label target
    match _left : lines.drop taken with
    | [] => (defined, [])
    | next :: others =>
      match continued? draft.frames next others with
      | none => (defined, next :: others)
      | some cursor => addText defined (textAt cursor) others
  | none =>
    match table? draft.frames cs lines with
    | some (table, rest) => ({ draft.add table with task := none }, rest)
    | none =>
      let (more, ending, rest) := paragraphLines draft.frames lines
      let source := runningText cs more
      let block := match ending with
        | some level => .heading level draft.task source
        | none => .paragraph draft.task source
      ({ draft.add block with task := none }, rest)
termination_by lines.length
decreasing_by
  have shorter := congrArg List.length _left
  simp only [List.length_drop, List.length_cons] at shorter
  omega

/-- Adds the block that begins at the cursor, which no container begins at; the lines after
it. -/
def addBlock (draft : Draft) (line : Line) (cursor : Cursor) (lines : List Line) :
    Draft × List Line :=
  let draft := draft.beginBlock
  let (indent, inner) := cursor.takeColumns 4
  let cs := inner.rest
  if indent = 4 then
    let (more, rest) := indentedLines draft.frames lines
    let all := (line.close inner.remainder, false) :: more
    let code := (all.reverse.dropWhile fun (_, blank) => blank).reverse
    ({ draft.add (.code "" (joined (code.map Prod.fst))) with
        afterBlank := (all.getLast?.map Prod.snd).getD false }, rest)
  else
    match htmlBlock? false cs with
    | some ending =>
      let (more, rest) := htmlLines draft.frames ending cs lines
      (draft.add (.raw (joined (line.close (List.replicate indent ' ' ++ cs) :: more))), rest)
    | none =>
      if isRule cs then (draft.add .rule, lines)
      else
        match headingLevel? cs, fence? cs with
        | some level, _ =>
          (draft.add (.heading level none ⟨headingText level cs, [], false⟩), lines)
        | none, some fence =>
          let (code, rest) := fencedLines draft.frames fence indent lines
          (draft.add (.code (String.ofList (unescape fence.label)) (joined code)), rest)
        | none, none => addText draft cs lines

/-- Adds the lines to the draft, in at most `fuel` blocks. -/
def addLines : (fuel : Nat) → Draft → List Line → Draft
  | 0, draft, _ => draft
  | _ + 1, draft, [] => draft
  | fuel + 1, draft, line :: lines =>
    let (count, start) := matchFrames draft.frames.reverse (.ofLine line.chars)
    let (opened, cursor, done) :=
      openContainers (line.chars.length + 1) (draft.closeTo count) start
    if done then addLines fuel opened lines
    else if cursor.isBlank then addLines fuel opened.noteBlank lines
    else
      let (added, rest) := addBlock opened line cursor lines
      addLines fuel added rest

def normalLineEnds : List Char → List Char
  | [] => []
  | '\r' :: '\n' :: cs => '\n' :: normalLineEnds cs
  | '\r' :: cs => '\n' :: normalLineEnds cs
  | c :: cs => c :: normalLineEnds cs

def Line.ofChars (cs : List Char) : Line :=
  match cs.reverse with
  | '\n' :: rest => ⟨rest.reverse, true⟩
  | _ => ⟨cs, false⟩

def outlineOf (text : List Char) : List Block × Definitions :=
  let lines := (linesOf (normalLineEnds text)).map Line.ofChars
  let draft := addLines (lines.length + 1) .empty lines
  (draft.blocks, draft.definitions)

end Folio.Markup
