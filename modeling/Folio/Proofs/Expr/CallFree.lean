import Folio.Entry.Property
import Folio.Proofs.Scope.SelfBinding
import Folio.Proofs.Keyed

/-!
# Expressions without applications

An expression calls nothing if no application stands in it, in the expressions that it is made of
or in the header of a document that one of its literals leads to: as an element of a list or a loop,
as a document of a tag or a category, or of a category above or below that one.  The properties that
an entry has of itself lead to nothing but such documents, and the names of a scope stand for nothing
but what is bound there.

Main statements: `Category.CallFree.property?`, `Document.CallFree.bindings`, `Scope.CallFree.resolve?`.
-/

namespace Folio

mutual

/-- No document that the value leads to has an application in its header. -/
inductive Value.CallFree : Value → Prop where
  | null : Value.CallFree .null
  | bool (b : Bool) : Value.CallFree (.bool b)
  | int (i : Int64) : Value.CallFree (.int i)
  | float (x : Float) : Value.CallFree (.float x)
  | str (s : String) : Value.CallFree (.str s)
  | date (t : Calendar.Timestamp) : Value.CallFree (.date t)
  | list {items : List Value} (each : ∀ v ∈ items, v.CallFree) : Value.CallFree (.list items)
  | entry {e : Entry} (inside : e.CallFree) : Value.CallFree (.entry e)
  | callable (c : Callable) : Value.CallFree (.callable c)

/-- There is no application in the expression, and none in the documents of its literals. -/
inductive Expr.CallFree : Expr → Prop where
  | value {v : Value} (inside : v.CallFree) : Expr.CallFree (.value v)
  | variable (name : String) : Expr.CallFree (.variable name)
  | array {items : List Expr} (each : ∀ e ∈ items, e.CallFree) : Expr.CallFree (.array items)

inductive Entry.CallFree : Entry → Prop where
  | path (p : SitePath) : Entry.CallFree (.path p)
  | document {d : Document} (inside : d.CallFree) : Entry.CallFree (.document d)
  | category {c : Category} (inside : c.CallFree) : Entry.CallFree (.category c)
  | categoryName (c : CategoryName) : Entry.CallFree (.categoryName c)
  | tag {t : Tag} (inside : t.CallFree) : Entry.CallFree (.tag t)
  | tagName (name : String) : Entry.CallFree (.tagName name)
  | loopItem {i : LoopItem} (inside : i.CallFree) : Entry.CallFree (.loopItem i)

/-- There is no application in the header. -/
inductive Document.CallFree : Document → Prop where
  | mk {d : Document} (header : ∀ field ∈ d.header, field.2.CallFree) : d.CallFree

inductive CategoryNode.CallFree : CategoryNode → Prop where
  | mk {node : CategoryNode} (documents : ∀ d ∈ node.documents, d.CallFree)
      (children : ∀ child ∈ node.children, child.CallFree) : node.CallFree

inductive Category.CallFree : Category → Prop where
  | mk {c : Category} (node : c.node.CallFree) (above : ∀ node ∈ c.above, node.CallFree) : c.CallFree

inductive Tag.CallFree : Tag → Prop where
  | mk {t : Tag} (documents : ∀ d ∈ t.documents, d.CallFree) : t.CallFree

inductive LoopItem.CallFree : LoopItem → Prop where
  | mk {i : LoopItem} (value : i.value.CallFree) : i.CallFree

end

def Fields.CallFree (fields : Fields) : Prop :=
  ∀ field ∈ fields, field.2.CallFree

/-- Nothing that is bound in the scope or around it calls anything. -/
inductive Scope.CallFree : Scope → Prop where
  | root {own : Fields} (fields : Fields.CallFree own) : Scope.CallFree (.root own)
  | child {own : Fields} {parent : Scope} (fields : Fields.CallFree own) (around : parent.CallFree) :
      Scope.CallFree (.child own parent)

variable {v : Value} {e : Expr} {c : Category} {d : Document} {t : Tag} {s : Scope} {name key : String}
  {fields : Fields}

/-! ## Fields and scopes -/

theorem Fields.CallFree.get? (free : Fields.CallFree fields) (found : Keyed.get? key fields = some e) : e.CallFree :=
  free _ (Keyed.mem_of_get? found)

theorem Fields.CallFree.set (free : Fields.CallFree fields) (key : String) (value : e.CallFree) :
    Fields.CallFree (Keyed.set key e fields) := by
  intro field mem
  obtain rfl | before := Keyed.mem_set mem
  · exact value
  · exact free field before

theorem Scope.CallFree.set (free : s.CallFree) (name : String) (value : e.CallFree) : (s.set name e).CallFree := by
  cases free with
  | root fields => exact .root (fields.set name value)
  | child fields around => exact .child (fields.set name value) around

theorem Scope.CallFree.bindingsOf (free : s.CallFree) (name : String) : ∀ e ∈ s.bindingsOf name, e.CallFree := by
  induction free with
  | root fields =>
    intro e mem
    exact fields.get? (Option.mem_toList.1 mem)
  | child fields around ih =>
    intro e mem
    obtain own | outer := List.mem_append.1 mem
    · exact fields.get? (Option.mem_toList.1 own)
    · exact ih e outer

theorem Scope.CallFree.resolve? (free : s.CallFree) (found : s.resolve? name = some e) : e.CallFree := by
  rw [resolve?_eq_find?] at found
  exact free.bindingsOf name e (List.mem_of_find?_eq_some found)

/-! ## Documents -/

theorem Document.CallFree.defaults (d : Document) : ∀ field ∈ d.defaults, field.2.CallFree := by
  have title : d.defaultTitle.CallFree := by
    rw [defaultTitle]
    split
    · exact .str _
    · exact .null
  simpa [Document.defaults, title] using ⟨.null, .list nofun, .bool true⟩

theorem Document.CallFree.header (free : d.CallFree) : Fields.CallFree d.header := by
  cases free with
  | mk header => exact header

/-- What a document binds besides its header calls nothing. -/
theorem Document.CallFree.bindings (free : d.CallFree) : Fields.CallFree d.bindings := by
  have withDefaults : ∀ defaults : List (String × Value), (∀ field ∈ defaults, field.2.CallFree) →
      ∀ fields, Fields.CallFree fields → Fields.CallFree (defaults.foldl d.withDefault fields) := by
    intro defaults
    induction defaults with
    | nil => exact fun _ _ free => free
    | cons first rest ih =>
      intro values fields free
      obtain ⟨value, values⟩ := List.forall_mem_cons.1 values
      refine ih values _ ?_
      rw [withDefault]
      split
      · split
        · exact free.set _ (.value value)
        · exact free
      · exact free.set _ (.value value)
  have all := withDefaults d.defaults (CallFree.defaults d) d.header free.header
  exact (all.set _ (.value (.entry (.path _)))).set _ (.value (.entry (.path _)))

theorem Document.CallFree.scope (free : d.CallFree) (around : s.CallFree) : (d.scope s).CallFree :=
  .child free.bindings around

/-- A list of documents as a value. -/
theorem callFree_documents {documents : List Document} (each : ∀ d ∈ documents, d.CallFree) :
    (Value.list (documents.map fun d => .entry (.document d))).CallFree := by
  refine .list fun v mem => ?_
  obtain ⟨d, listed, rfl⟩ := List.mem_map.1 mem
  exact .entry (.document (each d listed))

/-! ## Tags and categories -/

theorem Tag.CallFree.property? (free : t.CallFree) (found : t.property? name = some v) : v.CallFree := by
  obtain ⟨documents⟩ := free
  unfold Tag.property? at found
  split at found
  · cases found
    exact .str _
  · cases found
    exact callFree_documents documents
  · cases found

theorem findTag?_callFree {tags : List Value} (free : ∀ v ∈ tags, v.CallFree) (found : findTag? name tags = some t) :
    t.CallFree := by
  induction tags with
  | nil => cases found
  | cons v tags ih =>
    obtain ⟨first, rest⟩ := List.forall_mem_cons.1 free
    rw [findTag?.eq_def] at found
    split at found
    · cases found
    · rename_i tag others same
      cases same
      split at found
      · cases found
        cases first with
        | entry inside =>
          cases inside with
          | tag free => exact free
      · exact ih rest found
    · rename_i same
      cases same
      exact ih rest found

namespace Category.CallFree

theorem children (free : c.CallFree) : ∀ child ∈ c.children, child.CallFree := by
  obtain ⟨node, above⟩ := free
  intro child mem
  obtain ⟨below, listed, rfl⟩ := List.mem_map.1 mem
  obtain ⟨-, nodes⟩ := id node
  exact ⟨nodes below listed, List.forall_mem_cons.2 ⟨node, above⟩⟩

theorem parent? {parent : Category} (free : c.CallFree) (found : c.parent? = some parent) : parent.CallFree := by
  obtain ⟨node, above⟩ := free
  rw [Category.parent?] at found
  split at found
  · cases found
  · rename_i first rest named
    cases found
    rw [named] at above
    obtain ⟨first, rest⟩ := List.forall_mem_cons.1 above
    exact ⟨first, rest⟩

theorem find? (free : c.CallFree) {names : List String} {other : Category} (found : c.find? names = some other) :
    other.CallFree := by
  induction names generalizing c with
  | nil =>
    cases found
    exact free
  | cons name names ih =>
    rw [Category.find?] at found
    split at found
    · rename_i child known
      obtain ⟨node, listed, rfl⟩ := Option.map_eq_some_iff.1 known
      exact ih (free.children _ (List.mem_map_of_mem (List.mem_of_find?_eq_some listed))) found
    · cases found

theorem trail (tree : ℕ) {node : CategoryNode} {above : List CategoryNode} (free : node.CallFree)
    (around : ∀ node ∈ above, node.CallFree) : ∀ c ∈ Category.trail tree node above, c.CallFree := by
  induction above generalizing node with
  | nil => exact nofun
  | cons parent above ih =>
    obtain ⟨first, rest⟩ := List.forall_mem_cons.1 around
    intro c mem
    obtain before | last := List.mem_append.1 mem
    · exact ih first rest c before
    · cases List.mem_singleton.1 last
      exact ⟨free, around⟩

theorem listValue {categories : List Category} (each : ∀ c ∈ categories, c.CallFree) :
    (Category.listValue categories).CallFree := by
  refine .list fun v mem => ?_
  obtain ⟨c, listed, rfl⟩ := List.mem_map.1 mem
  exact .entry (.category (each c listed))

theorem property? (free : c.CallFree) (found : c.property? name = some v) : v.CallFree := by
  obtain ⟨node, above⟩ := id free
  obtain ⟨documents, -⟩ := id node
  unfold Category.property? at found
  split at found
  · cases found
    exact .str _
  · cases found
    exact listValue free.children
  · cases found
    exact callFree_documents documents
  · obtain ⟨parent, known, rfl⟩ := Option.map_eq_some_iff.1 found
    exact .entry (.category (free.parent? known))
  · cases found
    exact listValue (trail c.tree node above)
  · cases found

end Category.CallFree

/-! ## Paths and values -/

theorem SitePath.property?_callFree {p : SitePath} (found : p.property? name = some v) : v.CallFree := by
  have named : ∀ name? : Option String, (name?.elim Value.null .str).CallFree := by
    rintro (_ | name)
    · exact .null
    · exact .str name
  unfold SitePath.property? at found
  split at found
  · cases found
    exact named _
  · cases found
    exact named _
  · cases found
    exact .entry (.path _)
  · cases found

mutual

theorem Value.CallFree.unwrapped {v : Value} (free : v.CallFree) : v.unwrapped.CallFree := by
  cases free with
  | entry inside => exact inside.unwrapped
  | null => exact .null
  | bool b => exact .bool b
  | int i => exact .int i
  | float x => exact .float x
  | str s => exact .str s
  | date t => exact .date t
  | list each => exact .list each
  | callable c => exact .callable c
termination_by sizeOf v

theorem Entry.CallFree.unwrapped {e : Entry} (free : e.CallFree) : e.unwrapped.CallFree := by
  cases free with
  | loopItem inside => exact inside.unwrapped
  | path p => exact .entry (.path p)
  | document inside => exact .entry (.document inside)
  | category inside => exact .entry (.category inside)
  | categoryName c => exact .entry (.categoryName c)
  | tag inside => exact .entry (.tag inside)
  | tagName name => exact .entry (.tagName name)
termination_by sizeOf e

theorem LoopItem.CallFree.unwrapped : {i : LoopItem} → i.CallFree → i.unwrapped.CallFree
  | ⟨_, _, _, _⟩, ⟨inside⟩ => Value.CallFree.unwrapped inside
termination_by i => sizeOf i

end

mutual

theorem Value.CallFree.flatten {v : Value} (free : v.CallFree) : ∀ inner ∈ v.flatten, inner.CallFree := by
  cases free with
  | list each => exact flattenValues_callFree each
  | null => exact nofun
  | bool b => exact List.forall_mem_singleton.2 (.bool b)
  | int i => exact List.forall_mem_singleton.2 (.int i)
  | float x => exact List.forall_mem_singleton.2 (.float x)
  | str s => exact List.forall_mem_singleton.2 (.str s)
  | date t => exact List.forall_mem_singleton.2 (.date t)
  | entry inside => exact List.forall_mem_singleton.2 (.entry inside)
  | callable c => exact List.forall_mem_singleton.2 (.callable c)
termination_by sizeOf v

theorem flattenValues_callFree {vs : List Value} (free : ∀ v ∈ vs, v.CallFree) :
    ∀ inner ∈ flattenValues vs, inner.CallFree := by
  cases vs with
  | nil => exact nofun
  | cons v vs =>
    obtain ⟨first, rest⟩ := List.forall_mem_cons.1 free
    exact List.forall_mem_append.2 ⟨first.flatten, flattenValues_callFree rest⟩
termination_by sizeOf vs

end

end Folio
