import Folio.Markup.Basic

/-!
# Emphasis

A run of asterisks, underscores or tildes may open emphasis, close it, or both.  A closing
run takes the nearest open run of the same mark that fits it; the open runs between the two
stand for themselves.  As many marks as both runs have are used up, from the inside out: two
for strong emphasis while two are left, else one.  A run of tildes that could close and finds
no partner keeps later tildes from the runs that are open then.
-/

namespace Folio.Markup

/-- A run of one mark.  `length` is its length as written, `count` the number of marks that
are not used up, and `tail` the spaces that belong to its last mark. -/
structure Run where
  mark : Char
  length : Nat
  count : Nat
  opens : Bool
  closes : Bool
  tail : List Char
  deriving DecidableEq, Repr, Inhabited

namespace Run

def literal (run : Run) : Inline :=
  .plain (String.ofList (List.replicate run.count run.mark ++ run.tail))

/-- The two runs go together.  Tildes do only in equal number.  If one of the two could both
open and close, then their lengths may not sum up to a multiple of three, unless both are
multiples of three. -/
def fits (opening closing : Run) : Bool :=
  opening.mark == closing.mark &&
    (opening.mark != '~' || opening.length == closing.length) &&
    ((!(opening.opens && opening.closes) && !(closing.opens && closing.closes)) ||
      (opening.length + closing.length) % 3 != 0 || closing.length % 3 == 0)

end Run

/-- What a stretch of running text is made of before its emphasis is found. -/
inductive Piece where
  | inline (content : Inline)
  | run (run : Run)
  /-- The end of a line with a backslash before it. -/
  | escapedEnd
  deriving Repr, Inhabited

/-- An open run, and the text after it, the latest piece first. -/
structure Opened where
  run : Run
  after : List Inline
  deriving Repr, Inhabited

/-- Text with the runs that are open in it, innermost first.  `before` is the text before
all of them, the latest piece first.  So many of the outermost runs as `floor` says are closed
to tildes. -/
structure Emphasized where
  before : List Inline
  opened : List Opened
  floor : Nat
  deriving Repr, Inhabited

namespace Emphasized

def add (content : Inline) (text : Emphasized) : Emphasized :=
  match text.opened with
  | [] => { text with before := content :: text.before }
  | ⟨run, after⟩ :: outer => { text with opened := ⟨run, content :: after⟩ :: outer }

def push (run : Run) (text : Emphasized) : Emphasized :=
  { text with opened := ⟨run, []⟩ :: text.opened }

/-- Wraps the content into as many levels of emphasis as `count` marks give. -/
def wrap (mark : Char) : (count : Nat) → List Inline → List Inline
  | 0, content => content
  | 1, content => [if mark = '~' then .strike content else .emphasis content]
  | count + 2, content =>
    wrap mark count [if mark = '~' then .strike content else .strong content]

/-- The innermost open run that fits: what is open outside of it, the run with the text
after it, and all that text and the runs inside as text, the latest piece first. -/
def findOpened? (closing : Run) : List Opened → Option (List Inline × Run × List Opened)
  | [] => none
  | opened :: outer =>
    if opened.run.fits closing then some (opened.after, opened.run, outer)
    else
      (findOpened? closing outer).map fun (after, run, outer) =>
        (opened.after ++ opened.run.literal :: after, run, outer)

/-- The open run that the run closes, if it closes one: the text after the open run, the run,
and what is open outside of it. -/
def partner? (closing : Run) (text : Emphasized) : Option (List Inline × Run × List Opened) :=
  let count := text.opened.length - if closing.mark = '~' then text.floor else 0
  if closing.closes then
    (findOpened? closing (text.opened.take count)).map fun (after, run, outer) =>
      (after, run, outer ++ text.opened.drop count)
  else none

def noteUnpaired (run : Run) (text : Emphasized) : Emphasized :=
  if run.closes ∧ run.mark = '~' then { text with floor := text.opened.length } else text

/-- Closes open runs with the run, and opens what is left of it if it may open, in at most
`fuel` steps. -/
def close : (fuel : Nat) → Run → Emphasized → Emphasized
  | 0, run, text => text.add run.literal
  | fuel + 1, run, text =>
    if run.count = 0 then text
    else
      match text.partner? run with
      | some (content, opening, outer) =>
        let used := min opening.count run.count
        let outside : Emphasized := ⟨text.before, outer, min text.floor outer.length⟩
        let opened :=
          if opening.count = used then outside
          else outside.push { opening with count := opening.count - used }
        close fuel { run with count := run.count - used }
          ((wrap run.mark used content.reverse).foldl (fun text content => text.add content)
            opened)
      | none =>
        let text := text.noteUnpaired run
        if run.opens then text.push run else text.add run.literal

/-- The text, with the runs that nothing closed as text. -/
def flatten (text : Emphasized) : List Inline :=
  ((text.opened.foldr
      (fun opened done => opened.after ++ opened.run.literal :: done) text.before)).reverse

def addPiece (text : Emphasized) : Piece → Emphasized
  | .inline content => text.add content
  | .run run => close (run.count + 1) run text
  | .escapedEnd => text.add .hardBreak

end Emphasized

/-- The pieces, with a backslash for the escaped end of a line that nothing follows. -/
def plainLast (pieces : List Piece) : List Piece :=
  match pieces.reverse with
  | .escapedEnd :: before => (.inline (.plain "\\") :: before).reverse
  | _ => pieces

/-- Finds the emphasis in the pieces.  If there are marks among them (`marked`), an escaped
end of a line breaks the line only if something follows it. -/
def emphasize (marked : Bool) (pieces : List Piece) : List Inline :=
  ((if marked then plainLast pieces else pieces).foldl Emphasized.addPiece ⟨[], [], 0⟩).flatten

end Folio.Markup
