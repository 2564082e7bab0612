import Folio.Markup.Basic
import Folio.Markup.Link

/-!
# A document in the making

Lines are added to a document one block after the other.  Quotations, lists and their
items stay open while lines go on in them; a draft holds those that are open, innermost
first, with what is finished in each of them.

A list is loose if a blank line stands between two of its items or between two blocks of
one item.  So a draft remembers whether the line before was blank, and the list that the
next block belongs to, if it does, becomes loose.
-/

namespace Folio.Markup

/-- One line of a document, and whether a line end follows it. -/
structure Line where
  chars : List Char
  ended : Bool
  deriving DecidableEq, Repr, Inhabited

def Line.close (line : Line) (chars : List Char) : List Char :=
  if line.ended then chars ++ ['\n'] else chars

/-- A container that is open, with its finished content, the latest first. -/
inductive Frame where
  | quote (content : List Block)
  /-- A list between its items. -/
  | list (marker : Marker) (tight : Bool) (items : List (List Block))
  /-- An item, whose lines are indented by so many columns. -/
  | item (indent : Nat) (content : List Block)
  deriving Repr, Inhabited

/-- A document in the making. -/
structure Draft where
  /-- The open containers, innermost first. -/
  frames : List Frame
  /-- The finished blocks outside of all open containers, the latest first. -/
  finished : List Block
  definitions : Definitions
  /-- The line before was blank. -/
  afterBlank : Bool
  /-- The innermost item has nothing in it so far but its marker, and perhaps a check box. -/
  bareItem : Bool
  /-- The check box that stands before the next paragraph, wherever that is. -/
  task : Option Bool
  deriving Repr, Inhabited

namespace Draft

def empty : Draft :=
  ⟨[], [], [], false, false, none⟩

def add (block : Block) (draft : Draft) : Draft :=
  match draft.frames with
  | .quote content :: outer => { draft with frames := .quote (block :: content) :: outer }
  | .item indent content :: outer =>
    { draft with frames := .item indent (block :: content) :: outer }
  | _ => { draft with finished := block :: draft.finished }

/-- Ends the innermost container.  No item is bare any more once a tight list ends. -/
def close (draft : Draft) : Draft :=
  match draft.frames with
  | [] => draft
  | .quote content :: outer => ({ draft with frames := outer }).add (.quote content.reverse)
  | .list marker tight items :: outer =>
    ({ draft with frames := outer, bareItem := draft.bareItem && !tight }).add
      (.list marker.number? tight items.reverse)
  | .item _ content :: .list marker tight items :: outer =>
    { draft with frames := .list marker tight (content.reverse :: items) :: outer }
  | .item _ content :: outer =>
    ({ draft with frames := outer }).add (.quote content.reverse)

def closeTo (count : Nat) (draft : Draft) : Draft :=
  (List.range (draft.frames.length - count)).foldl (fun draft _ => draft.close) draft

/-- Makes the list loose whose item is innermost, if a blank line came before. -/
def loosen (draft : Draft) : Draft :=
  let frames :=
    match draft.afterBlank, draft.frames with
    | true, .item indent content :: .list marker _ items :: outer =>
      .item indent content :: .list marker false items :: outer
    | _, frames => frames
  { draft with frames, afterBlank := false }

/-- Makes ready for a block that is no item: the list that is between its items ends. -/
def endList (draft : Draft) : Draft :=
  match draft.frames with
  | .list .. :: _ => draft.close.loosen
  | _ => draft.loosen

def beginBlock (draft : Draft) : Draft :=
  { draft.endList with bareItem := false }

def push (frame : Frame) (draft : Draft) : Draft :=
  { draft with frames := frame :: draft.frames }

/-- Begins an item of the list that is between its items, if the markers agree, or of a new
list. -/
def beginItem (marker : Marker) (indent : Nat) (draft : Draft) : Draft :=
  let draft :=
    match draft.frames with
    | .list first tight items :: outer =>
      if first.mark = marker.mark then
        { draft with frames := .list first (tight && !draft.afterBlank) items :: outer }
      else draft.endList.push (.list marker true [])
    | _ => draft.endList.push (.list marker true [])
  { draft.push (.item indent []) with afterBlank := false }

/-- Notes a blank line.  In a quotation it has the mark of the quotation and counts for
nothing.  It ends an item that has nothing in it but its marker, for an item may begin with
one blank line only. -/
def noteBlank (draft : Draft) : Draft :=
  match draft.frames with
  | .quote _ :: _ => draft
  | .item .. :: _ => { if draft.bareItem then draft.close else draft with afterBlank := true }
  | _ => { draft with afterBlank := true }

def define (label : List Char) (target : Target) (draft : Draft) : Draft :=
  if (draft.definitions.lookup label).isSome then draft
  else { draft with definitions := draft.definitions ++ [(label, target)] }

def blocks (draft : Draft) : List Block :=
  (draft.closeTo 0).finished.reverse

end Draft

/-! ## Lines inside containers -/

/-- Goes over the marks of the containers, outermost first: how many of them the line
belongs to, and where their marks end. -/
def matchFrames : List Frame → Cursor → Nat × Cursor
  | [], cursor => (0, cursor)
  | .quote _ :: inner, cursor =>
    match cursor.quoteMark? with
    | some after =>
      let (count, last) := matchFrames inner after
      (count + 1, last)
    | none => (0, cursor)
  | .list .. :: inner, cursor =>
    let (count, last) := matchFrames inner cursor
    (count + 1, last)
  | .item indent _ :: inner, cursor =>
    let (taken, after) := cursor.takeColumns indent
    if taken = indent ∨ after.rest = [] then
      let (count, last) := matchFrames inner after
      (count + 1, last)
    else (0, cursor)

/-- Where the line goes on in the containers, if it belongs to all of them. -/
def within? (frames : List Frame) (line : Line) : Option Cursor :=
  let (count, cursor) := matchFrames frames.reverse (.ofLine line.chars)
  if count = frames.length then some cursor else none

end Folio.Markup
