/-!
# Marked-up text

What a Markdown text says: blocks, one below the other, which hold other blocks or a
stretch of running text.  A block keeps its running text as it is written, for what that
says depends on the link definitions of the whole document; `Inline` is the running text
once it is read.
-/

namespace Folio.Markup

/-- Where a link leads, and the title that a reader is shown. -/
structure Target where
  address : String
  title : String
  deriving DecidableEq, Repr, Inhabited

inductive Inline where
  | plain (content : String)
  | code (content : String)
  | softBreak
  | hardBreak
  | emphasis (content : List Inline)
  | strong (content : List Inline)
  | strike (content : List Inline)
  | link (target : Target) (content : List Inline)
  | image (target : Target) (content : List Inline)
  /-- Markup of HTML itself, which stands for itself. -/
  | raw (content : String)
  deriving Repr, Inhabited

/-- On which side the cells of a column are aligned. -/
inductive Alignment where
  | unset
  | left
  | center
  | right
  deriving DecidableEq, Repr, Inhabited

/-- Running text that is still to be read.  `margins` are the marks of the containers in front
of its lines after the first, as they stand in the document.  A pipe in the text of a cell is
written with a backslash before it (`inCell`). -/
structure Source where
  text : List Char
  margins : List (List Char)
  inCell : Bool
  deriving DecidableEq, Repr, Inhabited

/-- A block of a document.  `task` is the state of the check box before its text. -/
inductive Block where
  | paragraph (task : Option Bool) (source : Source)
  | heading (level : Nat) (task : Option Bool) (source : Source)
  | rule
  /-- Code, with the label of its language, which is empty if it has none. -/
  | code (label : String) (content : String)
  /-- Markup of HTML itself. -/
  | raw (content : String)
  | quote (content : List Block)
  /-- A list: the number of its first item if the items are numbered, and whether the
  paragraphs of its items stand close together. -/
  | list (start : Option Nat) (tight : Bool) (items : List (List Block))
  /-- A check box that is all there is on its line. -/
  | task (checked : Bool)
  | table (columns : List Alignment) (head : List (List Char)) (rows : List (List (List Char)))
  deriving Repr, Inhabited

end Folio.Markup
