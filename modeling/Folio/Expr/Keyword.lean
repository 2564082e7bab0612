import Folio.Expr.Parser
import Folio.Text.Blank

/-!
# Header fields

The value of a header field is an expression whose form depends on the field: lists of
names for `tags` and `category`, one line for a title, a date or a layout, and a lax
list for every other field.
-/

namespace Folio

open Text (isBlankText)

/-- The name that a term writes, if it is a literal or a bare name. -/
def literalName? : Expr → Option String
  | .variable name => some name
  | .value (.str s) => some s
  | .value (.int i) => some (toString i.toInt)
  | .value (.float x) => some (Decimal.Layout.plain.write x)
  | .value (.bool b) => some (if b then "true" else "false")
  | _ => none

/-- A term of a list of tags: a name is a tag, anything else stays what it is. -/
def tagTerm (term : Expr) : Expr :=
  match literalName? term with
  | some name => .value (.entry (.tagName name))
  | none => term

/-- The names of the terms, or the first term that is no name. -/
def segmentNames : List Expr → Except FormatFault (List String)
  | [] => .ok []
  | term :: terms =>
    match literalName? term with
    | none => .error (.categorySegment term.text)
    | some name =>
      match segmentNames terms with
      | .ok names => .ok (name :: names)
      | .error fault => .error fault

def categoryOfNames (names : List String) : Value :=
  match names.getLast? with
  | some name => .entry (.categoryName ⟨names.dropLast, name⟩)
  | none => .null

def parseItems (text : String) : Except FormatFault (List Expr) :=
  match Expr.parse .array text with
  | .ok (.array items) => .ok items
  | .ok e => .ok [e]
  | .error fault => .error fault

def Expr.parseField (key text : String) : Except FormatFault Expr :=
  if key = "tags" then
    if isBlankText text then .ok (.array [])
    else
      match parseItems text with
      | .ok items => .ok (.array (items.map tagTerm))
      | .error fault => .error fault
  else if key = "category" then
    if isBlankText text then .ok (.value .null)
    else
      match parseItems text with
      | .ok items =>
        match segmentNames items with
        | .ok names => .ok (.value (categoryOfNames names))
        | .error fault => .error fault
      | .error fault => .error fault
  else if isBlankText text then .ok (.value (.str ""))
  else if key = "title" ∨ key = "date" ∨ key = "layout" then Expr.parse .line text
  else Expr.parse .laxArray text

end Folio
