import Folio.Expr.Keyword
import Folio.Keyed
import Folio.Text.Lines

/-!
# Pages

A source text is a page: perhaps a header between two lines `---`, and a body.  Blank
lines may come before the header.  A text that does not begin with `---` is all body.
The header can be read by itself, or skipped unread.
-/

namespace Folio

open Text (isBlank linesOf trimChars trimEndChars)

structure Page where
  header : Fields
  body : String

namespace Page

/-- The byte order mark, which may stand before the first line. -/
def byteOrderMark : Char := '\ufeff'

/-- A line as the header sees it: without its end and, if it is the first, without byte
order marks before it. -/
def headerLine (number : Nat) (raw : List Char) : List Char :=
  let line := (raw.reverse.dropWhile fun c => c == '\n' || c == '\r').reverse
  if number = 1 then line.dropWhile (· == byteOrderMark) else line

def isDelimiter (line : List Char) : Bool :=
  trimEndChars line == "---".toList

/-- Reads a header line as a field: its key and its value. -/
def readField (number : Nat) (line : List Char) : Except FormatFault (String × Expr) :=
  match line.dropWhile (· != ':') with
  | [] => .error (.notField number (String.ofList line))
  | _ :: value =>
    let key := trimChars (line.takeWhile (· != ':'))
    if key.isEmpty || key.any isBlank then .error (.invalidKey number (String.ofList key))
    else
      match Expr.parseField (String.ofList key) (String.ofList (trimChars value)) with
      | .ok e => .ok (String.ofList key, e)
      | .error fault => .error (.field number fault)

/-- How far the header has been read. -/
structure HeaderState where
  /-- The opening line has been read. -/
  inside : Bool
  /-- The number of lines read. -/
  lines : Nat
  fields : Fields

def HeaderState.start : HeaderState := ⟨false, 0, []⟩

/-- What a line means to the header. -/
inductive HeaderStep where
  | goOn (state : HeaderState)
  /-- The header ends with this line. -/
  | closed (fields : Fields)
  /-- There is no header: the body begins with this line. -/
  | absent

/-- Takes the next line in.  `skipping` leaves the fields unread. -/
def HeaderState.feed (state : HeaderState) (skipping : Bool) (raw : List Char) :
    Except FormatFault HeaderStep :=
  let number := state.lines + 1
  let line := headerLine number raw
  let blank := line.all isBlank
  if state.inside then
    if isDelimiter line then .ok (.closed state.fields)
    else if blank || skipping then .ok (.goOn { state with lines := number })
    else
      match readField number line with
      | .ok (key, e) =>
        .ok (.goOn { state with lines := number, fields := Keyed.set key e state.fields })
      | .error fault => .error fault
  else if blank then .ok (.goOn { state with lines := number })
  else if isDelimiter line then .ok (.goOn { state with lines := number, inside := true })
  else .ok .absent

def HeaderState.finish (state : HeaderState) : Except FormatFault Fields :=
  if state.inside then .error .openHeader else .ok state.fields

/-- Reads the lines up to the end of the header: its fields, and the lines of the body. -/
def splitLines (skipping : Bool) (state : HeaderState) :
    List (List Char) → Except FormatFault (Fields × List (List Char))
  | [] =>
    match state.finish with
    | .ok fields => .ok (fields, [])
    | .error fault => .error fault
  | line :: lines =>
    match state.feed skipping line with
    | .error fault => .error fault
    | .ok (.goOn state) => splitLines skipping state lines
    | .ok (.closed fields) => .ok (fields, lines)
    | .ok .absent => .ok ([], line :: lines)

def split (skipping : Bool) (text : String) : Except FormatFault Page :=
  match splitLines skipping .start (linesOf text.toList) with
  | .ok (fields, lines) => .ok ⟨fields, String.ofList lines.flatten⟩
  | .error fault => .error fault

def parse (text : String) : Except FormatFault Page :=
  split false text

def bodyOf (text : String) : Except FormatFault String :=
  (split true text).map Page.body

end Page

end Folio
