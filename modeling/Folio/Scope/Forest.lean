import Folio.Scope.Basic

/-!
# A growing forest of scopes

Scopes that are made one after the other, each at the root or inside an earlier one,
and bound to more names as time goes on.  What evaluation sees is the chain of scopes
from one of them outwards, as it stands at that moment.
-/

namespace Folio

/-- A scope of the forest: its bindings and the number of the scope around it. -/
structure ScopeNode where
  own : Fields
  parent : Option Nat

/-- Scopes, numbered in the order in which they were made. -/
structure Forest where
  nodes : List ScopeNode

namespace Forest

def single : Forest := ⟨[⟨[], none⟩]⟩

def size (f : Forest) : Nat := f.nodes.length

/-- The chain from a scope outwards.  A scope lies inside an earlier one, so that the
chain ends. -/
def chain (nodes : List ScopeNode) (i : Nat) : Scope :=
  match nodes[i]? with
  | none => .root []
  | some node =>
    match node.parent with
    | none => .root node.own
    | some parent => if parent < i then .child node.own (chain nodes parent) else .root node.own
termination_by i

def scope (f : Forest) (i : Nat) : Scope :=
  chain f.nodes i

def spawn (f : Forest) (parent : Nat) : Forest :=
  ⟨f.nodes ++ [⟨[], some parent⟩]⟩

def set (f : Forest) (i : Nat) (name : String) (e : Expr) : Forest :=
  ⟨f.nodes.modify i fun node => { node with own := Keyed.set name e node.own }⟩

def setAll (f : Forest) (i : Nat) (bindings : Fields) : Forest :=
  bindings.foldl (fun f (name, e) => f.set i name e) f

end Forest

end Folio
