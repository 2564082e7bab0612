import Folio.Eval.Reducer

/-!
# Tags as entries

A tag lists the documents that carry it.  A tag that a header names is looked up in the
list of all tags when it is asked for a property.
-/

namespace Folio

def tagListKey : String := "tagList"

def Tag.property? (t : Tag) (name : String) : Option Value :=
  match name with
  | "name" => some (.str t.name)
  | "entries" => some (.list (t.documents.map fun d => .entry (.document d)))
  | _ => none

def findTag? (name : String) : List Value → Option Tag
  | [] => none
  | .entry (.tag t) :: vs => if t.name = name then some t else findTag? name vs
  | _ :: vs => findTag? name vs

namespace TagName

variable {m : Type → Type} {σ : Type} [Monad m] [Scoping m σ]

def resolve? (r : Evaluator m σ) (tagName : String) (s : σ) : m (Option Tag) := do
  match ← r.reduceBound? tagListKey s with
  | some (.list tags) => pure (findTag? tagName tags)
  | _ => pure none

/-- A property of the tag that the name stands for; a name that stands for none is a tag
without documents. -/
def property? (r : Evaluator m σ) (tagName name : String) (s : σ) : m (Option Value) := do
  match ← resolve? r tagName s with
  | some tag => pure (tag.property? name)
  | none =>
    match name with
    | "name" => pure (some (.str tagName))
    | "entries" => pure (some (.list []))
    | _ => pure none

end TagName

end Folio
