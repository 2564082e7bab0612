import Folio.Calendar.Reading
import Folio.Eval.Reducer
import Folio.Text.Blank

/-!
# Documents as entries

The fields of a document are read in a scope of its own, in which its header is bound.
So one field can be written in terms of the others, and it is the same whoever reads
it.
-/

namespace Folio.Document

open Calendar (Timestamp readTimestamp?)
open Text (isBlankText trim)

def path (d : Document) : SitePath :=
  d.source.withExtension "html"

/-- The title of a document that gives none: the name of its file. -/
def defaultTitle (d : Document) : Value :=
  match d.source.stem? with
  | some stem => .str stem
  | none => .null

def isBlankLiteral : Expr → Bool
  | .value (.str s) => isBlankText s
  | _ => false

/-- The fields that every document has, and what they are where the header is silent. -/
def defaults (d : Document) : List (String × Value) :=
  [("title", d.defaultTitle), ("date", .null), ("category", .null), ("tags", .list []),
    ("published", .bool true)]

/-- Binds a default where the header has nothing or a blank. -/
def withDefault (d : Document) (fields : Fields) : String × Value → Fields
  | (key, value) =>
    match Keyed.get? key d.header with
    | some e => if isBlankLiteral e then Keyed.set key (.value value) fields else fields
    | none => Keyed.set key (.value value) fields

/-- What the document binds in its scope: its header, the defaults, and its two
paths, which no field can hide. -/
def bindings (d : Document) : Fields :=
  let fields := d.defaults.foldl d.withDefault d.header
  let fields := Keyed.set "path" (.value (.entry (.path d.path))) fields
  Keyed.set "markdownPath" (.value (.entry (.path d.source))) fields

/-- The scope inside another in which the document's own fields are bound. -/
def scope (d : Document) (s : Scope) : Scope :=
  .child d.bindings s

end Folio.Document

namespace Folio

/-- Chains are seen as they are, and a scope that is made is one chain more. -/
instance : Scoping Eval Scope where
  lift x := x
  seen s := pure s
  inside d s := pure (d.scope s)
  binding name e s := pure (s.spawn.set name e)

namespace Document

open Calendar (Timestamp readTimestamp?)
open Text (isBlankText trim)

variable {m : Type → Type} {σ : Type} [Monad m] [Scoping m σ]

/-- The value of a header field, or nothing if the header has no such field. -/
def field? (d : Document) (r : Evaluator m σ) (name : String) (s : σ) : m (Option Value) :=
  match Keyed.get? name d.header with
  | some e => do
    let scope ← Scoping.inside d s
    let v ← r.reduce e scope
    pure (some v)
  | none => pure none

def title (d : Document) (r : Evaluator m σ) (s : σ) : m Value := do
  match ← d.field? r "title" s with
  | some (.str text) => pure (if isBlankText text then d.defaultTitle else .str text)
  | some .null => pure d.defaultTitle
  | none => pure d.defaultTitle
  | some v => pure v

def date (d : Document) (r : Evaluator m σ) (s : σ) : m (Option Timestamp) := do
  match ← d.field? r "date" s with
  | some (.date t) => pure (some t)
  | some (.str text) => pure (readTimestamp? text.toList)
  | _ => pure none

/-- A document is published unless its header says that it is not. -/
def published (d : Document) (r : Evaluator m σ) (s : σ) : m Bool := do
  match ← d.field? r "published" s with
  | some (.bool b) => pure b
  | some (.str text) => pure (!Text.eqIgnoreAsciiCase (trim text) "false")
  | _ => pure true

end Document

mutual

/-- The values in a value, looking into lists; a null is none. -/
def Value.flatten : Value → List Value
  | .list items => flattenValues items
  | .null => []
  | .bool b => [.bool b]
  | .int i => [.int i]
  | .float x => [.float x]
  | .str s => [.str s]
  | .date t => [.date t]
  | .entry e => [.entry e]
  | .callable c => [.callable c]
termination_by structural v => v

def flattenValues : List Value → List Value
  | [] => []
  | v :: vs => v.flatten ++ flattenValues vs
termination_by structural vs => vs

end

def stringsOf : List Value → List String
  | [] => []
  | .str s :: vs => s :: stringsOf vs
  | _ :: vs => stringsOf vs

namespace Document

variable {m : Type → Type} {σ : Type} [Monad m] [Scoping m σ]

/-- The values of the `tags` field, lists within it resolved. -/
def tags (d : Document) (r : Evaluator m σ) (s : σ) : m (List Value) := do
  match ← d.field? r "tags" s with
  | some v => pure v.flatten
  | none => pure []

/-- The names that a value of the `category` field gives, topmost first. -/
def categoryNames : Option Value → List String
  | some (.entry (.categoryName c)) => c.path
  | some (.entry (.category c)) => c.path
  | some (.str name) => if name = "" then [] else [name]
  | some (.list items) => stringsOf items
  | _ => []

/-- Where the document stands in the tree of categories. -/
def categoryPath (d : Document) (r : Evaluator m σ) (s : σ) : m (List String) := do
  let value ← d.field? r "category" s
  pure (categoryNames value)

def property? (d : Document) (r : Evaluator m σ) (name : String) (s : σ) :
    m (Option Value) := do
  match name with
  | "markdownPath" => pure (some (.entry (.path d.source)))
  | "path" => pure (some (.entry (.path d.path)))
  | "title" => do
    let v ← d.title r s
    pure (some v)
  | "date" => do
    match ← d.date r s with
    | some t => pure (some (.date t))
    | none => pure (some .null)
  | "published" => do
    let b ← d.published r s
    pure (some (.bool b))
  | "tags" => do
    let vs ← d.tags r s
    pure (some (.list vs))
  | "category" => do
    let v ← d.field? r "category" s
    pure (some (v.getD .null))
  | _ => d.field? r name s

end Document

end Folio
