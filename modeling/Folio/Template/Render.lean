import Folio.Eval.Reducer
import Folio.Template.Basic

/-!
# Rendering templates

A template is rendered in a scope: literals stand for themselves, expressions for the
text of their values, and a loop for its body once for each element.  Each pass has a
scope of its own, in which the element is bound.
-/

namespace Folio

namespace Template

def defaultItemName : String := "item"

def itemName (args : List Expr) : String :=
  match args with
  | _ :: .variable name :: _ => name
  | _ :: .value (.str name) :: _ => name
  | _ => defaultItemName

variable {m : Type → Type} {σ : Type} [Monad m] [Scoping m σ]

/-- The elements that a loop runs over: those of a list, and none of anything else. -/
def loopElements (r : Evaluator m σ) (args : List Expr) (s : σ) : m (List Value) := do
  match args with
  | [] => pure []
  | source :: _ => do
    match ← r.reduce source s with
    | .list items => pure items
    | _ => pure []

/-- What the name of the elements is bound to in one pass. -/
def passItem (count index : Nat) (item : Value) : Value :=
  .entry (.loopItem ⟨none, Int64.ofNat index, Int64.ofNat count, item⟩)

/-- The chain in which one pass takes place. -/
def passScope (name : String) (count index : Nat) (s : Scope) (item : Value) : Scope :=
  s.spawn.set name (.value (passItem count index item))

/-- The texts of the passes, one after the other, from pass `index` on.  A pass begins only
while the work has not been canceled. -/
def renderPasses (r : Evaluator m σ) (body : σ → m String) (name : String) (count : Nat)
    (s : σ) : (index : Nat) → List Value → m String
  | _, [] => pure ""
  | index, item :: items => do
    r.checkCanceled
    let scope ← Scoping.binding name (.value (passItem count index item)) s
    let first ← body scope
    let rest ← renderPasses r body name count s (index + 1) items
    pure (first ++ rest)

end Template

open Template

variable {m : Type → Type} {σ : Type} [Monad m] [Scoping m σ]

mutual

def Node.render (r : Evaluator m σ) (node : Node) (s : σ) : m String :=
  match node with
  | .literal text => pure text
  | .expression e => r.reduceToText e s
  | .loop args body => do
    let items ← loopElements r args s
    renderPasses r (fun s => renderNodes r body s) (itemName args) items.length s 0 items
termination_by structural node

def renderNodes (r : Evaluator m σ) (nodes : List Node) (s : σ) : m String :=
  match nodes with
  | [] => pure ""
  | node :: more => do
    let first ← node.render r s
    let rest ← renderNodes r more s
    pure (first ++ rest)
termination_by structural nodes

end

def Template.render (t : Template) (r : Evaluator m σ) (s : σ) : m String :=
  renderNodes r t s

end Folio
