import Folio.Entry.Property

/-!
# The index of tags and the tree of categories

Both are made from all documents at once.  The index lists, for each tag, the documents
that carry it, by date; the tree holds each document at the node that its category path
leads to.
-/

namespace Folio

open Calendar (Timestamp)

def compareDates : Option Timestamp → Option Timestamp → Ordering
  | some a, some b => a.compare b
  | some _, none => .lt
  | none, some _ => .gt
  | none, none => .eq

/-! ## Tags -/

structure Dated where
  date : Option Timestamp
  document : Document

/-- The name that a value of a `tags` field gives. -/
def tagNameOf (r : Reducer) (s : Scope) : Value → Eval String
  | .entry (.tagName name) => pure name
  | .entry (.tag t) => pure t.name
  | .str name => pure name
  | v => r.writeIn v s

def tagNamesOf (r : Reducer) (s : Scope) : List Value → Eval (List String)
  | [] => pure []
  | v :: vs => do
    let name ← tagNameOf r s v
    let names ← tagNamesOf r s vs
    pure (name :: names)

/-- Documents under the names of their tags, in the order of the names. -/
abbrev TagGroups := List (String × List Dated)

/-- Lists a document under a name: not under a blank one, and only once. -/
def TagGroups.add (entry : Dated) (groups : TagGroups) (name : String) : TagGroups :=
  if Text.isBlankText name then groups
  else
    Keyed.alter name
      (fun
        | none => [entry]
        | some members =>
          if members.any fun m => m.document.id == entry.document.id then members
          else members ++ [entry])
      groups

def groupByTag (r : Reducer) (s : Scope) : TagGroups → List Document → Eval TagGroups
  | groups, [] => pure groups
  | groups, d :: ds => do
    let date ← d.date r s
    let tags ← d.tags r s
    let names ← tagNamesOf r s tags
    groupByTag r s (names.foldl (TagGroups.add ⟨date, d⟩) groups) ds

/-- The documents in order of date; those with one date stay in their order. -/
def sortByDate (members : List Dated) : List Document :=
  (members.mergeSort fun a b => compareDates a.date b.date != .gt).map (·.document)

/-- The tags of the groups, numbered from `firstId`. -/
def tagsOfGroups (firstId : Nat) : TagGroups → List Tag
  | [] => []
  | (name, members) :: groups =>
    ⟨firstId, name, sortByDate members⟩ :: tagsOfGroups (firstId + 1) groups

/-- The index of tags: every tag with its documents, in order of name.  `firstId` numbers
the tags. -/
def tagIndex (r : Reducer) (firstId : Nat) (s : Scope) (documents : List Document) :
    Eval (List Tag) := do
  let groups ← groupByTag r s [] documents
  pure (tagsOfGroups firstId groups)

/-! ## Categories -/

/-- A document and the names that lead to it from some node. -/
structure Placed where
  path : List String
  document : Document

def directMembers (members : List Placed) : List Document :=
  members.filterMap fun m => if m.path.isEmpty then some m.document else none

/-- Hands a document on to the child that its path begins with. -/
def addToChild (groups : List (String × List Placed)) (m : Placed) :
    List (String × List Placed) :=
  match m.path with
  | [] => groups
  | name :: rest =>
    Keyed.alter name (fun members => members.getD [] ++ [⟨rest, m.document⟩]) groups

/-- The documents that belong below the node, under the names of the children. -/
def childMembers (members : List Placed) : List (String × List Placed) :=
  members.foldl addToChild []

/-- The node that holds these documents; no path is longer than `depth`. -/
def buildNode : (depth : Nat) → String → List Placed → CategoryNode
  | 0, name, members => ⟨name, directMembers members, []⟩
  | depth + 1, name, members =>
    { name
      documents := directMembers members
      children := (childMembers members).map fun (child, below) => buildNode depth child below }

def longestPath (members : List Placed) : Nat :=
  members.foldl (fun longest m => max longest m.path.length) 0

def placeDocuments (r : Reducer) (s : Scope) : List Document → Eval (List Placed)
  | [] => pure []
  | d :: ds => do
    let path ← d.categoryPath r s
    let placed ← placeDocuments r s ds
    pure (⟨path, d⟩ :: placed)

/-- The root of the tree of categories, with this identity. -/
def categoryTree (r : Reducer) (tree : Nat) (s : Scope) (documents : List Document) :
    Eval Category := do
  let placed ← placeDocuments r s documents
  pure ⟨tree, buildNode (longestPath placed) rootCategoryName placed, []⟩

def tagListValue (tags : List Tag) : Value :=
  .list (tags.map fun t => .entry (.tag t))

end Folio
