import Folio.Expr.Basic
import Folio.Keyed
import Folio.Text.Quoted

/-!
# Scopes

A scope binds names to expressions and falls back to the scope around it.  A scope
around another is never changed through it: the inner one can only shadow.
-/

namespace Folio

/-- The bindings of a scope and the scope around it, if there is one. -/
inductive Scope where
  | root (own : Fields)
  | child (own : Fields) (parent : Scope)

namespace Scope

def own : Scope → Fields
  | .root own => own
  | .child own _ => own

def parent? : Scope → Option Scope
  | .root _ => none
  | .child _ parent => some parent

def depth : Scope → Nat
  | .root _ => 0
  | .child _ parent => parent.depth + 1

def spawn (s : Scope) : Scope :=
  .child [] s

def set (name : String) (e : Expr) : Scope → Scope
  | .root own => .root (Keyed.set name e own)
  | .child own parent => .child (Keyed.set name e own) parent

def bindsOwn (s : Scope) (name : String) : Bool :=
  (Keyed.get? name s.own).isSome

/-- The nearest binding of a name and the scope that holds it. -/
def lookupHolder (name : String) : Scope → Option (Expr × Scope)
  | .root own => (Keyed.get? name own).map fun e => (e, .root own)
  | .child own parent =>
    match Keyed.get? name own with
    | some e => some (e, .child own parent)
    | none => parent.lookupHolder name

def lookup (s : Scope) (name : String) : Option Expr :=
  (s.lookupHolder name).map Prod.fst

/-- The binding says no more than the name itself. -/
def isSelf (name : String) : Expr → Bool
  | .variable other => other == name
  | _ => false

/-- The binding that a name stands for.  One that binds the name to itself means the
binding of the scope around. -/
def resolve? (name : String) : Scope → Option Expr
  | .root own => (Keyed.get? name own).filter fun e => !isSelf name e
  | .child own parent =>
    match Keyed.get? name own with
    | some e => if isSelf name e then parent.resolve? name else some e
    | none => parent.resolve? name

/-- The names bound in the scope itself, quoted and in order, and its depth. -/
def description (s : Scope) : String :=
  let quoted := (Keyed.keys s.own).map Text.debugQuoted
  "MetadataContext \x7b names: [" ++ String.intercalate ", " quoted ++ "], depth: " ++
    toString s.depth ++ " \x7d"

end Scope

end Folio
