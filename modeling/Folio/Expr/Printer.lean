import Folio.Decimal.Layout
import Folio.Expr.Basic

/-!
# Expressions as text

The text of an expression is made to be read again: names, brackets and literals stand
as they are written in a template.  A string is put in single quotes, or in double
quotes if it holds a single one; an entry shows its kind only.
-/

namespace Folio

def quotedText (s : String) : String :=
  if s.toList.contains '\'' then "\"" ++ s ++ "\"" else "'" ++ s ++ "'"

mutual

def Value.text : Value → String
  | .null => "''"
  | .bool b => if b then "true" else "false"
  | .int i => toString i.toInt
  | .float x => Decimal.Layout.literal.write x
  | .str s => quotedText s
  | .date t => t.text
  | .list items => "[" ++ String.intercalate "," (valueTexts items) ++ "]"
  | .entry e => "'" ++ e.kind ++ "'"
  | .callable c => c.name
termination_by structural v => v

def valueTexts : List Value → List String
  | [] => []
  | v :: vs => v.text :: valueTexts vs
termination_by structural vs => vs

end

mutual

def Expr.text : Expr → String
  | .value v => v.text
  | .variable name => name
  | .array items => "[" ++ String.intercalate "," (exprTexts items) ++ "]"
  | .apply function args => "(" ++ String.intercalate " " (function.text :: exprTexts args) ++ ")"
termination_by structural e => e

def exprTexts : List Expr → List String
  | [] => []
  | e :: es => e.text :: exprTexts es
termination_by structural es => es

end

instance : ToString Expr := ⟨Expr.text⟩

end Folio
