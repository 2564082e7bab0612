import Folio.Entry.Category
import Mathlib.Tactic

/-!
# Addresses in a tree of categories

A path of names leads from a category to one below it.  The category that is found knows
the path by which it was found, the categories on the way and the one above it.  Where no
two children of a category share a name, the path of a category leads back to it.
-/

namespace Folio.Category

variable {root c d : Category} {name : String} {p q : List String}

/-! ## One step down -/

theorem path_descend (c : Category) (node : CategoryNode) : (c.descend node).path = c.path ++ [node.name] :=
  rfl

theorem parent?_descend (c : Category) (node : CategoryNode) : (c.descend node).parent? = some c := by
  cases c
  rfl

theorem child?_eq_some (found : c.child? name = some d) :
    ∃ node ∈ c.node.children, node.name = name ∧ c.descend node = d := by
  obtain ⟨node, first, eq⟩ := Option.map_eq_some_iff.1 found
  exact ⟨node, List.mem_of_find?_eq_some first, by simpa using List.find?_some first, eq⟩

theorem child?_of_mem (distinct : (c.node.children.map (·.name)).Nodup) {node : CategoryNode}
    (mem : node ∈ c.node.children) : c.child? node.name = some (c.descend node) := by
  have first : c.node.children.find? (fun other => other.name == node.name) = some node := by
    generalize c.node.children = nodes at distinct mem
    induction nodes with
    | nil => contradiction
    | cons other nodes ih =>
      rw [List.map_cons, List.nodup_cons] at distinct
      obtain same | later := List.mem_cons.1 mem
      · simp [same]
      · -- Another child of the same name would be found in its place.
        have differs : other.name ≠ node.name := by
          intro same
          exact distinct.1 (same ▸ List.mem_map_of_mem later)
        rw [List.find?_cons_of_neg (by simpa using differs), ih distinct.2 later]
  rw [child?, first, Option.map_some]

/-! ## Paths -/

theorem breadcrumbs_names (c : Category) : c.breadcrumbs.map (·.node.name) = c.path := by
  obtain ⟨tree, node, above⟩ := c
  simp only [breadcrumbs, path]
  induction above generalizing node with
  | nil => rfl
  | cons parent above ih => simp [trail, pathOf, ih parent]

theorem find?_append (c : Category) (p q : List String) : c.find? (p ++ q) = (c.find? p).bind (·.find? q) := by
  induction p generalizing c with
  | nil => rfl
  | cons name names ih =>
    rw [List.cons_append, find?, find?]
    cases c.child? name with
    | none => rfl
    | some child => exact ih child

theorem find?_singleton (c : Category) (name : String) : c.find? [name] = c.child? name := by
  rw [find?]
  cases c.child? name <;> rfl

theorem find?_concat (c : Category) (p : List String) (name : String) :
    c.find? (p ++ [name]) = (c.find? p).bind (·.child? name) := by
  simp only [find?_append, find?_singleton]

theorem path_of_find? (found : c.find? p = some d) : d.path = c.path ++ p := by
  induction p using List.reverseRecOn generalizing d with
  | nil =>
    cases found
    simp
  | append_singleton p name ih =>
    rw [find?_concat, Option.bind_eq_some_iff] at found
    obtain ⟨parent, above, found⟩ := found
    obtain ⟨node, -, rfl, rfl⟩ := child?_eq_some found
    rw [path_descend, ih above, List.append_assoc]

theorem parent?_of_find? (found : c.find? p = some d) (below : p ≠ []) : d.parent? = c.find? p.dropLast := by
  obtain ⟨p, name, rfl⟩ := (List.eq_nil_or_concat p).resolve_left below
  rw [List.concat_eq_append] at found ⊢
  rw [find?_concat, Option.bind_eq_some_iff] at found
  obtain ⟨parent, above, found⟩ := found
  obtain ⟨node, -, -, rfl⟩ := child?_eq_some found
  rw [List.dropLast_concat, above, parent?_descend]

/-! ## The categories of a tree -/

/-- The category is the first one or one below it. -/
inductive Contains (root : Category) : Category → Prop where
  | root : Contains root root
  | child {c : Category} {node : CategoryNode} (above : Contains root c) (mem : node ∈ c.node.children) :
      Contains root (c.descend node)

theorem contains_of_find? (found : root.find? p = some c) : root.Contains c := by
  induction p using List.reverseRecOn generalizing c with
  | nil =>
    cases found
    exact .root
  | append_singleton p name ih =>
    rw [find?_concat, Option.bind_eq_some_iff] at found
    obtain ⟨parent, above, found⟩ := found
    obtain ⟨node, mem, -, rfl⟩ := child?_eq_some found
    exact .child (ih above) mem

/-- The path of a category leads to it. -/
theorem find?_path (top : root.isRoot = true)
    (distinct : ∀ c, root.Contains c → (c.node.children.map (·.name)).Nodup) (inside : root.Contains c) :
    root.find? c.path = some c := by
  induction inside with
  | root =>
    have none : root.above = [] := List.isEmpty_iff.1 top
    rw [path, none]
    rfl
  | child above mem ih =>
    rw [path_descend, find?_concat, ih, Option.bind_some, child?_of_mem (distinct _ above) mem]

end Folio.Category
