import Folio.Text.Boundary
import Folio.Text.Letter

/-!
# Messages on the console

A message stands after the name of the part of the program that it comes from.  A message
of one line is cut so that it fits on one line of the console.
-/

namespace Folio.Console

def defaultWidth : Nat := 120

structure Message where
  source : String
  text : String
  deriving DecidableEq, Repr, Inhabited

/-- The bytes that the name takes with its brackets and the space after it. -/
def Message.labelWidth (m : Message) : Nat :=
  m.source.utf8ByteSize + 3

/-- The text of the message as it fits on a line of the width; a text of several lines is
left as it is. -/
def Message.shown (width : Nat) (m : Message) : String :=
  if m.text.toList.contains '\n' then m.text
  else Text.truncate m.text (width - m.labelWidth)

/-- The number of the colour in which a name is shown: red for errors, green for builds,
else yellow. -/
def colourOf (source : String) : String :=
  if Text.lowerAscii source = "error" then "91"
  else if Text.lowerAscii source = "build" then "92"
  else "93"

def Message.label (colour : Bool) (m : Message) : String :=
  let plain := "[" ++ m.source ++ "]"
  if colour then "\x1b[1;" ++ colourOf m.source ++ "m" ++ plain ++ "\x1b[0m" else plain

/-- What is written for a message: the rest of the line is cleared first. -/
def Message.render (width : Nat) (colour : Bool) (m : Message) : String :=
  "\x1b[K" ++ m.label colour ++ " " ++ m.shown width ++ "\n"

end Folio.Console
