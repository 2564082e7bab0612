import Folio.Eval.Reducer

/-!
# Categories as entries

The tree of categories hangs from one root, which has a name of its own and is on no
path.  A category that a header names is looked up in the tree when it is asked for a
property.
-/

namespace Folio

def rootCategoryName : String := "(root)"

/-- The binding that holds the root of the tree of categories. -/
def rootCategoryKey : String := "rootCategory"

namespace Category

def descend (c : Category) (node : CategoryNode) : Category :=
  ⟨c.tree, node, c.node :: c.above⟩

def children (c : Category) : List Category :=
  c.node.children.map c.descend

def child? (c : Category) (name : String) : Option Category :=
  (c.node.children.find? fun node => node.name == name).map c.descend

def parent? (c : Category) : Option Category :=
  match c.above with
  | [] => none
  | node :: above => some ⟨c.tree, node, above⟩

/-- The categories on the way from the root, which is left out, to a node. -/
def trail (tree : Nat) : CategoryNode → List CategoryNode → List Category
  | _, [] => []
  | node, parent :: above => trail tree parent above ++ [⟨tree, node, parent :: above⟩]

def breadcrumbs (c : Category) : List Category :=
  trail c.tree c.node c.above

def find? (c : Category) : List String → Option Category
  | [] => some c
  | name :: names =>
    match c.child? name with
    | some child => child.find? names
    | none => none

def listValue (categories : List Category) : Value :=
  .list (categories.map fun c => .entry (.category c))

def property? (c : Category) (name : String) : Option Value :=
  match name with
  | "name" => some (.str c.node.name)
  | "children" => some (listValue c.children)
  | "entries" => some (.list (c.node.documents.map fun d => .entry (.document d)))
  | "parent" => c.parent?.map fun parent => .entry (.category parent)
  | "breadcrumbs" => some (listValue c.breadcrumbs)
  | _ => none

end Category

namespace CategoryName

variable {m : Type → Type} {σ : Type} [Monad m] [Scoping m σ]

def resolve? (c : CategoryName) (r : Evaluator m σ) (s : σ) : m (Option Category) := do
  match ← r.reduceBound? rootCategoryKey s with
  | some (.entry (.category root)) => pure (root.find? c.path)
  | _ => pure none

/-- The names from the topmost down to this one, as categories that are named. -/
def breadcrumbs (c : CategoryName) : List CategoryName :=
  go [] c.path
where
  /-- The names that follow those already passed. -/
  go (passed : List String) : List String → List CategoryName
    | [] => []
    | name :: names => ⟨passed, name⟩ :: go (passed ++ [name]) names

/-- A property of the category that the name stands for; a name that stands for none
answers for itself. -/
def property? (c : CategoryName) (r : Evaluator m σ) (name : String) (s : σ) :
    m (Option Value) := do
  match ← c.resolve? r s with
  | some category => pure (category.property? name)
  | none =>
    match name with
    | "name" => pure (some (.str c.name))
    | "parent" => pure (c.parent?.map fun parent => .entry (.categoryName parent))
    | "breadcrumbs" =>
      pure (some (.list (c.breadcrumbs.map fun crumb => .entry (.categoryName crumb))))
    | _ => pure none

end CategoryName

end Folio
