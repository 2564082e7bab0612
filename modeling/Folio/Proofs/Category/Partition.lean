import Folio.Aggregate
import Folio.Builtin.Basic
import Folio.Eval.Machine
import Folio.Proofs.Category.Address
import Folio.Proofs.Keyed

/-!
# The tree of categories and its documents

The tree has each document at one node, the one that the document's category path leads to,
and has no node but the root that no document's path passes through.  Each node holds what
is left of the members after the names on its path have been taken off their paths; the
facts about the tree are facts about these remainders.

Main statement: `categoryTree_partition`.
-/

namespace Folio

open Builtin (nodeDocuments nodesDocuments)
open Keyed (Ascending)

variable {depth tree : ℕ} {name : String} {members inner : List Placed} {m : Placed}

/-! ## Members of a child -/

/-- What the member hands on to the child of this name. -/
def handOn? (name : String) (m : Placed) : Option Placed :=
  match m.path with
  | [] => none
  | first :: rest => if first = name then some ⟨rest, m.document⟩ else none

def membersOf (name : String) (members : List Placed) : List Placed :=
  members.filterMap (handOn? name)

theorem handOn?_eq_some {below : Placed} :
    handOn? name m = some below ↔ m.path = name :: below.path ∧ m.document = below.document := by
  obtain ⟨path, document⟩ := m
  obtain ⟨rest, other⟩ := below
  cases path with
  | nil => simp [handOn?]
  | cons first path =>
    by_cases same : first = name <;> simp [handOn?, same]

theorem mem_membersOf {below : Placed} :
    below ∈ membersOf name members ↔ ∃ m ∈ members, m.path = name :: below.path ∧ m.document = below.document := by
  simp only [membersOf, List.mem_filterMap, handOn?_eq_some]

theorem membersOf_concat (name : String) (members : List Placed) (m : Placed) :
    membersOf name (members ++ [m]) = membersOf name members ++ (handOn? name m).toList := by
  rw [membersOf, List.filterMap_append]
  cases handed : handOn? name m <;> simp [membersOf, handed]

theorem childMembers_concat (members : List Placed) (m : Placed) :
    childMembers (members ++ [m]) = addToChild (childMembers members) m := by
  simp [childMembers]

theorem ascending_childMembers (members : List Placed) : Ascending (childMembers members) := by
  induction members using List.reverseRecOn with
  | nil => exact .nil
  | append_singleton members m ih =>
    rw [childMembers_concat, addToChild]
    cases m.path with
    | nil => exact ih
    | cons first rest => exact ih.set _ _

/-- A child is there if it has members. -/
theorem get?_childMembers (name : String) (members : List Placed) :
    Keyed.get? name (childMembers members) =
      if membersOf name members = [] then none else some (membersOf name members) := by
  induction members using List.reverseRecOn with
  | nil => rfl
  | append_singleton members m ih =>
    rw [childMembers_concat, addToChild, membersOf_concat]
    cases path : m.path with
    | nil =>
      have kept : handOn? name m = none := by simp [handOn?, path]
      rw [kept, Option.toList_none, List.append_nil]
      exact ih
    | cons first rest =>
      simp only [Keyed.alter]
      -- The last member joins the child that its path begins with, and no other.
      by_cases same : first = name
      · subst same
        have handed : handOn? first m = some ⟨rest, m.document⟩ := by simp [handOn?, path]
        have known : (Keyed.get? first (childMembers members)).getD [] = membersOf first members := by
          rw [ih]
          split_ifs with empty
          · exact empty.symm
          · rfl
        rw [Keyed.get?_set_self, known]
        simp [handed]
      · have kept : handOn? name m = none := by simp [handOn?, path, same]
        rw [Keyed.get?_set_of_ne (Ne.symm same), ih, kept, Option.toList_none, List.append_nil]

theorem mem_childMembers (mem : (name, inner) ∈ childMembers members) : inner = membersOf name members := by
  have found := Keyed.get?_of_mem (ascending_childMembers members) mem
  rw [get?_childMembers] at found
  split_ifs at found with empty
  exact (Option.some_inj.1 found).symm

/-! ## Nodes -/

def Within (depth : ℕ) (members : List Placed) : Prop :=
  ∀ m ∈ members, m.path.length ≤ depth

theorem Within.membersOf (within : Within depth members) (name : String) :
    Within (depth - 1) (membersOf name members) := by
  intro below mem
  obtain ⟨m, mem, path, -⟩ := mem_membersOf.1 mem
  have short := within m mem
  rw [path, List.length_cons] at short
  omega

theorem childMembers_of_within (within : Within 0 members) : childMembers members = [] := by
  induction members using List.reverseRecOn with
  | nil => rfl
  | append_singleton members m ih =>
    have empty : m.path = [] := List.length_eq_zero_iff.1 (Nat.le_zero.1 (within m (by simp)))
    rw [childMembers_concat, addToChild, empty]
    exact ih fun m mem => within m (by simp [mem])

theorem buildNode_name (depth : ℕ) (name : String) (members : List Placed) :
    (buildNode depth name members).name = name := by
  cases depth <;> rfl

theorem buildNode_documents (depth : ℕ) (name : String) (members : List Placed) :
    (buildNode depth name members).documents = directMembers members := by
  cases depth <;> rfl

/-- A depth that no path exceeds cuts no child off. -/
theorem buildNode_children (within : Within depth members) (name : String) :
    (buildNode depth name members).children =
      (childMembers members).map fun group => buildNode (depth - 1) group.1 group.2 := by
  cases depth with
  | zero =>
    rw [childMembers_of_within within]
    rfl
  | succ depth => rfl

theorem buildNode_childNames (within : Within depth members) (name : String) :
    (buildNode depth name members).children.map (·.name) = Keyed.keys (childMembers members) := by
  simp [buildNode_children within, Keyed.keys, buildNode_name]

/-- There is a child of a name if there are members for it. -/
theorem child?_isSome_iff {c : Category} (within : Within depth members) (built : c.node = buildNode depth name members)
    (child : String) : (c.child? child).isSome ↔ membersOf child members ≠ [] := by
  have named : child ∈ Keyed.keys (childMembers members) ↔ membersOf child members ≠ [] := by
    rw [Keyed.mem_keys_iff, get?_childMembers]
    split_ifs with empty
    · simp [empty]
    · simp [empty]
  rw [← named, ← buildNode_childNames within name, Category.child?, Option.isSome_map, List.find?_isSome, List.mem_map,
    built]
  simp only [beq_iff_eq]

/-! ## Documents of a whole tree -/

theorem nodesDocuments_eq_flatMap (nodes : List CategoryNode) : nodesDocuments nodes = nodes.flatMap nodeDocuments := by
  induction nodes with
  | nil => rfl
  | cons node nodes ih => rw [nodesDocuments, ih, List.flatMap_cons]

theorem nodeDocuments_eq (node : CategoryNode) :
    nodeDocuments node = node.documents ++ node.children.flatMap nodeDocuments := by
  cases node with
  | mk name documents children => rw [nodeDocuments, nodesDocuments_eq_flatMap]

def groupDocuments (groups : List (String × List Placed)) : List Document :=
  groups.flatMap fun group => group.2.map (·.document)

/-- A document is handed on to one child and to no other. -/
theorem groupDocuments_addToChild {groups : List (String × List Placed)} (ascending : Ascending groups) {first : String}
    {rest : List String} (path : m.path = first :: rest) :
    (groupDocuments (addToChild groups m)).Perm (groupDocuments groups ++ [m.document]) := by
  -- One group is taken out, is longer by a member at its end, and is put back; the others stay.
  have before := (Keyed.perm_get? ascending first).flatMap_right fun group => group.2.map (·.document)
  have after := (Keyed.perm_set ascending first ((Keyed.get? first groups).getD [] ++ [⟨rest, m.document⟩])).flatMap_right
    fun group => group.2.map (·.document)
  rw [addToChild, path]
  refine after.trans (.trans ?_ (before.symm.append_right [m.document]))
  have last (documents : List Document) : ([m.document] ++ documents).Perm (documents ++ [m.document]) :=
    List.perm_append_comm
  cases Keyed.get? first groups with
  | none => simpa using last _
  | some known =>
    simp only [Option.getD_some, List.flatMap_cons, List.map_append, List.map_cons, List.map_nil, Option.toList_some,
      List.cons_append, List.nil_append, List.append_assoc]
    exact (last _).append_left _

/-- Each member is one of the node itself or of one child. -/
theorem members_perm (members : List Placed) :
    (directMembers members ++ groupDocuments (childMembers members)).Perm (members.map (·.document)) := by
  induction members using List.reverseRecOn with
  | nil => exact .nil
  | append_singleton members m ih =>
    have split : directMembers (members ++ [m]) = directMembers members ++ directMembers [m] := by
      simp [directMembers]
    rw [split, childMembers_concat, List.map_append, List.map_singleton]
    cases path : m.path with
    | nil =>
      -- Its own documents stand before those of its children: the new one moves past them.
      have direct : directMembers [m] = [m.document] := by simp [directMembers, path]
      have kept : addToChild (childMembers members) m = childMembers members := by rw [addToChild, path]
      rw [direct, kept, List.append_assoc]
      refine .trans (List.perm_append_comm.append_left _) ?_
      rw [← List.append_assoc]
      exact ih.append_right _
    | cons first rest =>
      have direct : directMembers [m] = [] := by simp [directMembers, path]
      rw [direct, List.append_nil]
      have handed := groupDocuments_addToChild (ascending_childMembers members) path
      refine (handed.append_left _).trans ?_
      rw [← List.append_assoc]
      exact ih.append_right _

theorem nodeDocuments_perm (within : Within depth members) (name : String) :
    (nodeDocuments (buildNode depth name members)).Perm (members.map (·.document)) := by
  induction depth generalizing name members with
  | zero =>
    have all := members_perm members
    rw [childMembers_of_within within] at all
    rw [nodeDocuments_eq, buildNode_children within, childMembers_of_within within]
    exact all
  | succ depth ih =>
    rw [nodeDocuments_eq, buildNode_documents, buildNode_children within, List.flatMap_map]
    refine .trans (.append_left _ ?_) (members_perm members)
    refine List.Perm.flatMap_left _ fun group mem => ?_
    rw [mem_childMembers mem]
    exact ih (within.membersOf _) _

/-! ## Members below a path -/

/-- What is left of the members at the end of a path. -/
def remaining (p : List String) (members : List Placed) : List Placed :=
  p.foldl (fun left name => membersOf name left) members

theorem remaining_concat (p : List String) (name : String) (members : List Placed) :
    remaining (p ++ [name]) members = membersOf name (remaining p members) := by
  simp [remaining]

theorem mem_remaining {p : List String} {below : Placed} :
    below ∈ remaining p members ↔ ∃ m ∈ members, m.path = p ++ below.path ∧ m.document = below.document := by
  induction p using List.reverseRecOn generalizing below with
  | nil =>
    constructor
    · intro mem
      exact ⟨below, mem, rfl, rfl⟩
    · rintro ⟨⟨path, document⟩, mem, rfl, rfl⟩
      exact mem
  | append_singleton p name ih =>
    rw [remaining_concat, mem_membersOf]
    constructor
    · rintro ⟨left, mem, path, document⟩
      obtain ⟨m, mem, whole, same⟩ := ih.1 mem
      refine ⟨m, mem, ?_, same.trans document⟩
      rw [whole, path, List.append_assoc, List.singleton_append]
    · rintro ⟨m, mem, path, document⟩
      refine ⟨⟨name :: below.path, below.document⟩, ih.2 ⟨m, mem, ?_, document⟩, rfl, rfl⟩
      rw [path, List.append_assoc, List.singleton_append]

theorem remaining_ne_nil {p : List String} : remaining p members ≠ [] ↔ ∃ m ∈ members, p <+: m.path := by
  constructor
  · intro present
    obtain ⟨below, mem⟩ := List.exists_mem_of_ne_nil _ present
    obtain ⟨m, mem, path, -⟩ := mem_remaining.1 mem
    exact ⟨m, mem, below.path, path.symm⟩
  · rintro ⟨m, mem, rest, path⟩
    have left : ⟨rest, m.document⟩ ∈ remaining p members := mem_remaining.2 ⟨m, mem, path.symm, rfl⟩
    exact List.ne_nil_of_mem left

/-- The documents at the end of a path, in their order. -/
def documentsAt (p : List String) (members : List Placed) : List Document :=
  (members.filter fun m => m.path = p).map (·.document)

theorem directMembers_eq (members : List Placed) : directMembers members = documentsAt [] members := by
  induction members with
  | nil => rfl
  | cons m members ih =>
    have split : directMembers (m :: members) = directMembers [m] ++ directMembers members := by
      cases path : m.path <;> simp [directMembers, path]
    rw [split, ih]
    cases path : m.path <;> simp [directMembers, documentsAt, path]

theorem documentsAt_membersOf (name : String) (p : List String) (members : List Placed) :
    documentsAt p (membersOf name members) = documentsAt (name :: p) members := by
  induction members with
  | nil => rfl
  | cons m members ih =>
    rw [documentsAt, documentsAt, membersOf] at ih
    cases path : m.path with
    | nil => simp [documentsAt, membersOf, handOn?, path, ih]
    | cons first rest =>
      by_cases same : first = name
      · by_cases whole : rest = p <;> simp [documentsAt, membersOf, handOn?, path, same, whole, ih]
      · simp [documentsAt, membersOf, handOn?, path, same, ih]

theorem directMembers_remaining (p : List String) (members : List Placed) :
    directMembers (remaining p members) = documentsAt p members := by
  induction p generalizing members with
  | nil => exact directMembers_eq members
  | cons name p ih =>
    rw [← documentsAt_membersOf, ← ih]
    rfl

/-! ## Every node of the tree -/

section Tree

variable {root c : Category}

theorem built_child (within : Within depth members) {node : CategoryNode}
    (mem : node ∈ (buildNode depth name members).children) :
    node = buildNode (depth - 1) node.name (membersOf node.name members) := by
  rw [buildNode_children within, List.mem_map] at mem
  obtain ⟨⟨child, inner⟩, mem, rfl⟩ := mem
  rw [buildNode_name, ← mem_childMembers mem]

/-- A category of the tree is made from what is left of the members at the end of its path. -/
theorem built_of_contains (within : Within depth members)
    (inside : Category.Contains ⟨tree, buildNode depth name members, []⟩ c) :
    ∃ below, Within below (remaining c.path members) ∧
      c.node = buildNode below c.node.name (remaining c.path members) := by
  induction inside with
  | root => exact ⟨depth, within, by rw [buildNode_name]; rfl⟩
  | @child c node above mem ih =>
    obtain ⟨below, within, built⟩ := ih
    rw [built] at mem
    rw [Category.path_descend, remaining_concat]
    exact ⟨below - 1, within.membersOf _, built_child within mem⟩

theorem ascending_of_contains (within : Within depth members)
    (inside : Category.Contains ⟨tree, buildNode depth name members, []⟩ c) :
    (c.node.children.map (·.name)).Pairwise (· < ·) := by
  obtain ⟨below, within, built⟩ := built_of_contains within inside
  rw [built, buildNode_childNames within]
  exact ascending_childMembers _

theorem find?_isSome_iff (within : Within depth members) (p : List String) :
    (Category.find? ⟨tree, buildNode depth name members, []⟩ p).isSome ↔ p = [] ∨ ∃ m ∈ members, p <+: m.path := by
  rw [← remaining_ne_nil]
  induction p using List.reverseRecOn with
  | nil => simp [Category.find?]
  | append_singleton p child ih =>
    rw [Category.find?_concat, remaining_concat]
    cases found : Category.find? ⟨tree, buildNode depth name members, []⟩ p with
    | none =>
      rw [found] at ih
      have nothing : p ≠ [] ∧ remaining p members = [] := by simpa using mt ih.2
      simp [nothing.2, membersOf]
    | some d =>
      have inside := Category.contains_of_find? found
      have path : d.path = p := Category.path_of_find? found
      obtain ⟨below, within, built⟩ := built_of_contains within inside
      rw [path] at within built
      rw [Option.bind_some, child?_isSome_iff within built]
      simp

end Tree

theorem within_longestPath (members : List Placed) : Within (longestPath members) members := by
  -- A longer start counts as a longest path too: this is what the fold carries on.
  have grows : ∀ (members : List Placed) (start : ℕ),
      let longest := members.foldl (fun longest m => max longest m.path.length) start
      start ≤ longest ∧ Within longest members := by
    intro members
    induction members with
    | nil => exact fun start => ⟨le_refl _, fun _ mem => nomatch mem⟩
    | cons m members ih =>
      intro start
      obtain ⟨reached, within⟩ := ih (max start m.path.length)
      refine ⟨(le_max_left _ _).trans reached, fun other mem => ?_⟩
      cases mem with
      | head => exact (le_max_right _ _).trans reached
      | tail _ later => exact within other later
  exact (grows members 0).2

/-! ## The whole tree -/

/-- The tree below the root has the documents at the places that their paths lead to. -/
structure Category.Sorts (root : Category) (documents : List Document) (paths : Document → List String) : Prop where
  /-- No document is lost, and none is there more often than it was given. -/
  collected : (nodeDocuments root.node).Perm documents
  /-- A document belongs to the category at the end of its path, and to no other. -/
  owner : ∀ d ∈ documents, ∃ c, root.find? (paths d) = some c ∧ d ∈ c.node.documents ∧
    ∀ other, root.Contains other → d ∈ other.node.documents → other = c
  found_iff : ∀ p, (root.find? p).isSome ↔ p = [] ∨ ∃ d ∈ documents, p <+: paths d
  /-- What is found knows how it was found, and what stands above it. -/
  address : ∀ p c, root.find? p = some c →
    c.path = p ∧ c.breadcrumbs.map (·.node.name) = p ∧ (p ≠ [] → c.parent? = root.find? p.dropLast)
  reached : ∀ c, root.Contains c → root.find? c.path = some c
  /-- The documents of a category are in the order in which they were given. -/
  direct : ∀ c, root.Contains c → c.node.documents = documents.filter fun d => paths d = c.path
  ascending : ∀ c, root.Contains c → (c.node.children.map (·.name)).Pairwise (· < ·)

theorem placeDocuments_eq {r : Reducer} {s : Scope} {documents : List Document} {paths : Document → List String}
    (reduced : ∀ d ∈ documents, d.categoryPath r s = pure (paths d)) :
    placeDocuments r s documents = pure (documents.map fun d => ⟨paths d, d⟩) := by
  induction documents with
  | nil => rfl
  | cons d documents ih =>
    have first := reduced d (List.mem_cons_self ..)
    have later := ih fun d mem => reduced d (List.mem_cons_of_mem _ mem)
    rw [placeDocuments, first, later]
    rfl

/-- The tree of documents whose category paths are known. -/
def sortedTree (tree : ℕ) (documents : List Document) (paths : Document → List String) : Category :=
  let members : List Placed := documents.map fun d => ⟨paths d, d⟩
  ⟨tree, buildNode (longestPath members) rootCategoryName members, []⟩

theorem categoryTree_eq {r : Reducer} {s : Scope} {documents : List Document} {paths : Document → List String}
    (reduced : ∀ d ∈ documents, d.categoryPath r s = pure (paths d)) (tree : ℕ) :
    categoryTree r tree s documents = pure (sortedTree tree documents paths) := by
  rw [categoryTree, placeDocuments_eq reduced]
  rfl

theorem nodeDocuments_sortedTree (tree : ℕ) (documents : List Document) (paths : Document → List String) :
    (nodeDocuments (sortedTree tree documents paths).node).Perm documents := by
  have all := nodeDocuments_perm (within_longestPath (documents.map fun d => ⟨paths d, d⟩)) rootCategoryName
  simpa [sortedTree, Function.comp_def] using all

/-- Documents whose category paths are known are sorted into a tree by them. -/
theorem categoryTree_partition (r : Reducer) (tree : ℕ) (s : Scope) (documents : List Document)
    (paths : Document → List String) (reduced : ∀ d ∈ documents, d.categoryPath r s = pure (paths d)) :
    ∃ root, categoryTree r tree s documents = pure root ∧ root.isRoot = true ∧ root.Sorts documents paths := by
  let members : List Placed := documents.map fun d => ⟨paths d, d⟩
  let root : Category := ⟨tree, buildNode (longestPath members) rootCategoryName members, []⟩
  have within : Within (longestPath members) members := within_longestPath members
  have ascending : ∀ c, root.Contains c → (c.node.children.map (·.name)).Pairwise (· < ·) :=
    fun c inside => ascending_of_contains within inside
  have reached : ∀ c, root.Contains c → root.find? c.path = some c := fun c inside =>
    Category.find?_path rfl (fun c inside => (ascending c inside).imp fun less => less.ne) inside
  have found_iff : ∀ p, (root.find? p).isSome ↔ p = [] ∨ ∃ d ∈ documents, p <+: paths d := by
    intro p
    rw [find?_isSome_iff within]
    simp [members]
  have direct : ∀ c, root.Contains c → c.node.documents = documents.filter fun d => paths d = c.path := by
    intro c inside
    obtain ⟨below, -, built⟩ := built_of_contains within inside
    rw [built, buildNode_documents, directMembers_remaining, documentsAt, List.filter_map, List.map_map]
    simp [Function.comp_def]
  refine ⟨root, categoryTree_eq reduced tree, rfl, nodeDocuments_sortedTree tree documents paths, fun d mem => ?_,
    found_iff, fun p c found => ?_, reached, direct, ascending⟩
  · -- The node at the end of the document's path is there, and lists it; any other has another path.
    obtain ⟨c, found⟩ := Option.isSome_iff_exists.1 ((found_iff (paths d)).2 (.inr ⟨d, mem, List.prefix_rfl⟩))
    have path : c.path = paths d := Category.path_of_find? found
    have inside := Category.contains_of_find? found
    refine ⟨c, found, ?_, fun other known listed => ?_⟩
    · rw [direct c inside, path]
      simpa using mem
    · rw [direct other known, List.mem_filter, decide_eq_true_eq] at listed
      have same := reached other known
      rw [← listed.2, found] at same
      exact (Option.some_inj.1 same).symm
  · have path : c.path = p := Category.path_of_find? found
    exact ⟨path, by rw [Category.breadcrumbs_names, path], Category.parent?_of_find? found⟩

/-- A document in a category, one in a category below it, and one in none. -/
theorem categoryTree_partition_nested :
    let r := Reducer.ofTools Builtin.toolbox false
    let page : Document := ⟨0, .parse "page.md", [("category", .value (.str "a"))]⟩
    let inner : Document := ⟨1, .parse "inner.md", [("category", .array [.value (.str "a"), .variable "b"])]⟩
    let plain : Document := ⟨2, .parse "plain.md", []⟩
    let paths := fun d : Document => if d.id = 0 then ["a"] else if d.id = 1 then ["a", "b"] else []
    ∃ root, categoryTree r 0 (.root []) [inner, plain, page] = pure root ∧ root.isRoot = true ∧
      root.Sorts [inner, plain, page] paths := by
  intro r page inner plain paths
  refine categoryTree_partition r 0 (.root []) [inner, plain, page] paths fun d mem => ?_
  simp only [List.mem_cons, List.not_mem_nil, or_false] at mem
  obtain rfl | rfl | rfl := mem
  · rfl
  · rfl
  · rfl

/-- The root is found by the path without names where no document has any path. -/
theorem find?_root_without_documents :
    ¬∃ root, categoryTree (Reducer.ofTools Builtin.toolbox false) 0 (.root []) [] = pure root ∧
      ∀ p, (root.find? p).isSome ↔
        ∃ d ∈ ([] : List Document), ∃ path, d.categoryPath (Reducer.ofTools Builtin.toolbox false) (.root []) = pure path ∧
          p <+: path := by
  rintro ⟨root, -, found_iff⟩
  obtain ⟨d, mem, -⟩ := (found_iff []).1 rfl
  contradiction

end Folio
