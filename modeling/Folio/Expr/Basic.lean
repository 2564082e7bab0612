import Folio.Calendar.Timestamp
import Folio.SitePath

/-!
# Expressions and values

The terms of the template language and what they evaluate to.  The two are one family
of types: a literal holds a value, a value can be an entry of the site, and a document
among the entries holds the unevaluated expressions of its header.

A callable is held by name and registration, not by the function that it runs; which
function that is, an evaluation is told separately.  So values stay data: they can be
compared and printed.
-/

namespace Folio

open Calendar (Timestamp)

/-- What a callable wants for its arguments. -/
inductive CallStyle where
  /-- The argument expressions, unevaluated; the expression it returns is evaluated
  in turn. -/
  | deferred
  /-- Argument values, a look-up of names, and the locale. -/
  | contextual
  /-- Argument values. -/
  | strict
  deriving DecidableEq, Repr

/-- A function value.  Two callables are the same if they come from one registration
under one name. -/
structure Callable where
  style : CallStyle
  name : String
  registration : Nat
  deriving DecidableEq, Repr

/-- A category that a header names: its own name and the names above it, topmost
first. -/
structure CategoryName where
  above : List String
  name : String
  deriving DecidableEq, Repr

def CategoryName.path (c : CategoryName) : List String :=
  c.above ++ [c.name]

/-- The category that the last of the names above stands for. -/
def CategoryName.parent? (c : CategoryName) : Option CategoryName :=
  c.above.getLast?.map fun name => ⟨c.above.dropLast, name⟩

mutual

inductive Value where
  | null
  | bool (b : Bool)
  | int (i : Int64)
  | float (x : Float)
  | str (s : String)
  | date (t : Timestamp)
  | list (items : List Value)
  | entry (e : Entry)
  | callable (c : Callable)

inductive Expr where
  | value (v : Value)
  /-- A name, or a name and properties with dots between them. -/
  | variable (name : String)
  | array (items : List Expr)
  | apply (function : Expr) (args : List Expr)

/-- Something with properties. -/
inductive Entry where
  | path (p : SitePath)
  | document (d : Document)
  | category (c : Category)
  /-- A category as a header names it, to be found in the tree of categories. -/
  | categoryName (c : CategoryName)
  | tag (t : Tag)
  /-- A tag as a header names it, to be found in the list of tags. -/
  | tagName (name : String)
  | loopItem (i : LoopItem)

/-- A source document: where it lies and the fields of its header, by ascending key. -/
structure Document where
  /-- Tells documents apart that agree in everything else. -/
  id : Nat
  source : SitePath
  header : List (String × Expr)

/-- A node of a tree of categories.  The children are in ascending order of name. -/
structure CategoryNode where
  name : String
  documents : List Document
  children : List CategoryNode

/-- A category: a node and the nodes above it, nearest first, in one tree. -/
structure Category where
  tree : Nat
  node : CategoryNode
  above : List CategoryNode

structure Tag where
  id : Nat
  name : String
  documents : List Document

/-- One pass of a loop: its number from 0, the number of passes, and the element. -/
structure LoopItem where
  /-- Set for an item that is shared by several bindings. -/
  id : Option Nat
  index : Int64
  count : Int64
  value : Value

end

/-- Expressions under names: the fields of a header, the bindings of a scope. -/
abbrev Fields := List (String × Expr)

instance : Inhabited Value := ⟨.null⟩

instance : Inhabited Expr := ⟨.value .null⟩

instance : Inhabited Document := ⟨⟨0, .root, []⟩⟩

namespace Category

def isRoot (c : Category) : Bool :=
  c.above.isEmpty

/-- The names on the way from the root, which is left out, to a node. -/
def pathOf : CategoryNode → List CategoryNode → List String
  | _, [] => []
  | node, parent :: above => pathOf parent above ++ [node.name]

def path (c : Category) : List String :=
  pathOf c.node c.above

end Category

namespace Entry

def kind : Entry → String
  | .path _ => "path"
  | .document _ => "markdown"
  | .category _ => "category"
  | .categoryName _ => "partial-category"
  | .tag _ => "tag"
  | .tagName _ => "partial-tag"
  | .loopItem _ => "iterator"

end Entry

namespace Value

def typeName : Value → String
  | .null => "null"
  | .bool _ => "bool"
  | .int _ => "integer"
  | .float _ => "float"
  | .str _ => "string"
  | .date _ => "date"
  | .list _ => "list"
  | .entry _ => "entry"
  | .callable _ => "function"

end Value

/-! ## Sameness

Values are the same if they have the same parts; but floats are compared as numbers,
dates as moments, categories and callables by identity, and an entry that is shared is
the same as itself whatever its parts. -/

mutual

def Value.same : Value → Value → Bool
  | .null, .null => true
  | .bool a, .bool b => a == b
  | .int a, .int b => a == b
  | .float a, .float b => a == b
  | .str a, .str b => a == b
  | .date a, .date b => a.sameMoment b
  | .list a, .list b => sameValues a b
  | .entry a, .entry b => a.same b
  | .callable a, .callable b => a == b
  | _, _ => false
termination_by structural v => v

def sameValues : List Value → List Value → Bool
  | [], [] => true
  | a :: as, b :: bs => a.same b && sameValues as bs
  | _, _ => false
termination_by structural vs => vs

/-- The two expressions have the same form and the same literals. -/
def Expr.same : Expr → Expr → Bool
  | .value a, .value b => a.same b
  | .variable a, .variable b => a == b
  | .array a, .array b => sameExprs a b
  | .apply f a, .apply g b => f.same g && sameExprs a b
  | _, _ => false
termination_by structural e => e

def sameExprs : List Expr → List Expr → Bool
  | [], [] => true
  | a :: as, b :: bs => a.same b && sameExprs as bs
  | _, _ => false
termination_by structural es => es

def Entry.same : Entry → Entry → Bool
  | .path a, .path b => a == b
  | .document a, .document b => a.id == b.id || a.same b
  | .category a, .category b => a.tree == b.tree && a.path == b.path
  | .categoryName a, .categoryName b => a == b
  | .tag a, .tag b => a.id == b.id || a.same b
  | .tagName a, .tagName b => a == b
  | .loopItem a, .loopItem b => (a.id.isSome && a.id == b.id) || a.same b
  | _, _ => false
termination_by structural e => e

def Document.same : Document → Document → Bool
  | ⟨_, source, header⟩, d => source == d.source && sameFields header d.header
termination_by structural d => d

def sameFields : List (String × Expr) → List (String × Expr) → Bool
  | [], [] => true
  | (key, a) :: as, (other, b) :: bs => key == other && a.same b && sameFields as bs
  | _, _ => false
termination_by structural fields => fields

def sameDocuments : List Document → List Document → Bool
  | [], [] => true
  | a :: as, b :: bs => a.same b && sameDocuments as bs
  | _, _ => false
termination_by structural ds => ds

def Tag.same : Tag → Tag → Bool
  | ⟨_, name, documents⟩, t => name == t.name && sameDocuments documents t.documents
termination_by structural t => t

/-- The two items are the same pass over the same element. -/
def LoopItem.same : LoopItem → LoopItem → Bool
  | ⟨_, index, count, value⟩, i => index == i.index && count == i.count && value.same i.value
termination_by structural i => i

end

end Folio
