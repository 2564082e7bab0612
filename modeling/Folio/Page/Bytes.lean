import Folio.Page.Basic
import Folio.Text.Encoding

/-!
# Headers read from files

The header of a file is read line by line, and nothing after it is looked at.  So only
the lines up to its end have to be text.
-/

namespace Folio.Page

/-- The lines of a file, each with its line feed. -/
def byteLines : List UInt8 → List (List UInt8)
  | [] => []
  | b :: bs =>
    if b = 10 then [b] :: byteLines bs
    else
      match byteLines bs with
      | [] => [[b]]
      | line :: more => (b :: line) :: more

def readHeaderLines (path : String) (state : HeaderState) :
    List (List UInt8) → Except Fault Fields
  | [] =>
    match state.finish with
    | .ok fields => .ok fields
    | .error fault => .error (.format fault)
  | bytes :: lines =>
    match Text.decode? bytes with
    | none => .error (.file path ((Text.flaw? bytes).elim .invalidText .flawedLine))
    | some line =>
      match state.feed false line.toList with
      | .error fault => .error (.format fault)
      | .ok (.goOn state) => readHeaderLines path state lines
      | .ok (.closed fields) => .ok fields
      | .ok .absent => .ok []

/-- Reads only the header of the file at this path, which holds these bytes. -/
def readHeader (path : String) (bytes : List UInt8) : Except Fault Fields :=
  readHeaderLines path .start (byteLines bytes)

end Folio.Page
