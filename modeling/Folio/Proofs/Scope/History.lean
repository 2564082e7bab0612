import Folio.Proofs.Keyed
import Folio.Scope.Forest

/-!
# What is done to scopes

A history is what is done to scopes, one change after the other: a scope is made, by itself or inside
another one, or a name is set in a scope.  The forest has of each name what was set last in each
scope, and a name is looked up in the first scope outwards in which it ever was set.

Main statements: `History.lookupHolder_eq`, `History.lookupHolder_set` and `Grows.lookupHolder_eq`.
-/

namespace Folio

/-- What is done to scopes. -/
inductive Change where
  | root
  | spawn (parent : ℕ)
  | set (scope : ℕ) (name : String) (e : Expr)

/-- What has been done to scopes, one change after the other. -/
abbrev History := List Change

namespace Forest

/-- Makes a scope that lies in no other; it has the next number. -/
def addRoot (f : Forest) : Forest :=
  ⟨f.nodes ++ [⟨[], none⟩]⟩

/-- The nearest binding of a name and the number of the scope that holds it. -/
def lookupHolder (f : Forest) (i : ℕ) (name : String) : Option (Expr × ℕ) :=
  match f.nodes[i]? with
  | none => none
  | some node =>
    match Keyed.get? name node.own with
    | some e => some (e, i)
    | none =>
      match node.parent with
      | none => none
      | some parent => if parent < i then f.lookupHolder parent name else none
termination_by i

end Forest

namespace History

def change (f : Forest) : Change → Forest
  | .root => f.addRoot
  | .spawn parent => f.spawn parent
  | .set scope name e => f.set scope name e

def forest (h : History) : Forest :=
  h.foldl change ⟨[]⟩

/-- The scopes that the history makes, each with the scope that it lies in. -/
def parents (h : History) : List (Option ℕ) :=
  h.filterMap fun
    | .root => some none
    | .spawn parent => some (some parent)
    | .set .. => none

def size (h : History) : ℕ :=
  h.parents.length

def lastSet? (h : History) (scope : ℕ) (name : String) : Option Expr :=
  h.reverse.findSome? fun
    | .set other key e => if other = scope ∧ key = name then some e else none
    | _ => none

/-- The scopes from one of them outwards, where each lies in the one that is given. -/
def path (parents : List (Option ℕ)) (i : ℕ) : List ℕ :=
  match parents[i]? with
  | some (some parent) => i :: if parent < i then path parents parent else []
  | _ => [i]
termination_by i

def outward (h : History) (i : ℕ) : List ℕ :=
  path h.parents i

/-- From `i` outwards the scope comes before all others in which the name was set. -/
def Reaches (h : History) (i scope : ℕ) (name : String) : Prop :=
  scope ∈ h.outward i ∧ ∀ nearer ∈ (h.outward i).takeWhile (· ≠ scope), h.lastSet? nearer name = none

end History

/-- The history goes on with scopes that it makes in those there are, and sets names in no other scopes
than these new ones. -/
inductive Grows (h : History) : History → Prop where
  | refl : Grows h h
  | root {h' : History} (grown : Grows h h') : Grows h (h' ++ [.root])
  | spawn {h' : History} {parent : ℕ} (grown : Grows h h') (inside : parent < h'.size) :
      Grows h (h' ++ [.spawn parent])
  | set {h' : History} {scope : ℕ} {name : String} {e : Expr} (grown : Grows h h') (new : h.size ≤ scope)
      (inside : scope < h'.size) : Grows h (h' ++ [.set scope name e])

def History.Sound (h : History) : Prop :=
  Grows [] h

variable {h h' h'' : History} {f : Forest} {i scope parent : ℕ} {name key : String} {e : Expr} {node : ScopeNode}

/-! ## One change -/

namespace History

@[simp] theorem forest_concat (h : History) (c : Change) : forest (h ++ [c]) = change h.forest c := by
  rw [forest, List.foldl_append]
  rfl

@[simp] theorem parents_root (h : History) : parents (h ++ [.root]) = h.parents ++ [none] := by
  simp [parents]

@[simp] theorem parents_spawn (h : History) (parent : ℕ) :
    parents (h ++ [.spawn parent]) = h.parents ++ [some parent] := by
  simp [parents]

@[simp] theorem parents_set (h : History) (scope : ℕ) (name : String) (e : Expr) :
    parents (h ++ [.set scope name e]) = h.parents := by
  simp [parents]

@[simp] theorem size_root (h : History) : size (h ++ [.root]) = h.size + 1 := by
  simp [size]

@[simp] theorem size_spawn (h : History) (parent : ℕ) : size (h ++ [.spawn parent]) = h.size + 1 := by
  simp [size]

@[simp] theorem size_set (h : History) (scope : ℕ) (name : String) (e : Expr) :
    size (h ++ [.set scope name e]) = h.size := by
  simp [size]

@[simp] theorem lastSet?_root (h : History) (scope : ℕ) (name : String) :
    lastSet? (h ++ [.root]) scope name = h.lastSet? scope name := by
  simp [lastSet?]

@[simp] theorem lastSet?_spawn (h : History) (parent scope : ℕ) (name : String) :
    lastSet? (h ++ [.spawn parent]) scope name = h.lastSet? scope name := by
  simp [lastSet?]

theorem lastSet?_set (h : History) (scope other : ℕ) (name key : String) (e : Expr) :
    lastSet? (h ++ [.set scope name e]) other key =
      if scope = other ∧ name = key then some e else h.lastSet? other key := by
  rw [lastSet?, List.reverse_append, List.reverse_singleton, List.singleton_append, List.findSome?_cons]
  by_cases same : scope = other ∧ name = key
  · simp [same]
  · simp only [if_neg same, lastSet?]

theorem parents_forest (h : History) : h.forest.nodes.map (·.parent) = h.parents := by
  induction h using List.reverseRecOn with
  | nil => rfl
  | append_singleton h c ih =>
    rw [forest_concat]
    cases c with
    | root => simp [change, Forest.addRoot, ih]
    | spawn parent => simp [change, Forest.spawn, ih]
    | set scope name e =>
      rw [parents_set, ← ih]
      refine List.ext_getElem? fun i => ?_
      simp only [change, Forest.set, List.getElem?_map, List.getElem?_modify]
      cases (forest h).nodes[i]? with
      | none => rfl
      | some node => split_ifs <;> rfl

theorem length_nodes (h : History) : h.forest.nodes.length = h.size := by
  rw [size, ← parents_forest, List.length_map]

end History

/-! ## What a history leaves as it is -/

namespace Grows

theorem size_le (grown : Grows h h') : h.size ≤ h'.size := by
  induction grown with
  | refl => exact le_rfl
  | root grown ih => exact ih.trans (by simp)
  | spawn grown inside ih => exact ih.trans (by simp)
  | set grown new inside ih => exact ih.trans (by simp)

theorem trans (first : Grows h h') (second : Grows h' h'') : Grows h h'' := by
  induction second with
  | refl => exact first
  | root grown ih => exact .root ih
  | spawn grown inside ih => exact .spawn ih inside
  | set grown new inside ih => exact .set ih (first.size_le.trans new) inside

theorem sound (grown : Grows h h') (sound : h.Sound) : h'.Sound := by
  induction grown with
  | refl => exact sound
  | root grown ih => exact .root ih
  | spawn grown inside ih => exact .spawn ih inside
  | set grown new inside ih => exact .set ih (Nat.zero_le _) inside

/-- A scope that was there before has the same bindings and lies in the same scope. -/
theorem node_eq (grown : Grows h h') (old : i < h.size) : h'.forest.nodes[i]? = h.forest.nodes[i]? := by
  induction grown with
  | refl => rfl
  | root grown ih =>
    rw [← ih, History.forest_concat]
    exact List.getElem?_append_left (History.length_nodes _ ▸ old.trans_le grown.size_le)
  | spawn grown inside ih =>
    rw [← ih, History.forest_concat]
    exact List.getElem?_append_left (History.length_nodes _ ▸ old.trans_le grown.size_le)
  | @set h' scope name e grown new inside ih =>
    have apart : scope ≠ i := by omega
    rw [← ih, History.forest_concat]
    exact List.getElem?_modify_ne _ _ apart

end Grows

/-- The chain of a scope depends only on the scopes made up to this one. -/
theorem Forest.chain_congr {nodes nodes' : List ScopeNode} (same : ∀ j ≤ i, nodes'[j]? = nodes[j]?) :
    Forest.chain nodes' i = Forest.chain nodes i := by
  induction i using Nat.strong_induction_on with
  | _ i ih =>
    rw [Forest.chain, Forest.chain, same i le_rfl]
    cases nodes[i]? with
    | none => rfl
    | some node =>
      dsimp only
      cases node.parent with
      | none => rfl
      | some parent =>
        dsimp only
        split_ifs with earlier
        · rw [ih parent earlier fun j below => same j (below.trans earlier.le)]
        · rfl

theorem Forest.lookupHolder_congr {f f' : Forest} (same : ∀ j ≤ i, f'.nodes[j]? = f.nodes[j]?) (name : String) :
    f'.lookupHolder i name = f.lookupHolder i name := by
  induction i using Nat.strong_induction_on with
  | _ i ih =>
    rw [Forest.lookupHolder, Forest.lookupHolder, same i le_rfl]
    cases f.nodes[i]? with
    | none => rfl
    | some node =>
      dsimp only
      cases Keyed.get? name node.own with
      | some e => rfl
      | none =>
        dsimp only
        cases node.parent with
        | none => rfl
        | some parent =>
          dsimp only
          split_ifs with earlier
          · rw [ih parent earlier fun j below => same j (below.trans earlier.le)]
          · rfl

/-- What evaluation sees of a scope that was there before is the same. -/
theorem Grows.scope_eq (grown : Grows h h') (old : i < h.size) : h'.forest.scope i = h.forest.scope i :=
  Forest.chain_congr fun _ below => grown.node_eq (below.trans_lt old)

/-- In a scope that was there before every name is looked up as before. -/
theorem Grows.lookupHolder_eq (grown : Grows h h') (old : i < h.size) (name : String) :
    h'.forest.lookupHolder i name = h.forest.lookupHolder i name :=
  Forest.lookupHolder_congr (fun _ below => grown.node_eq (below.trans_lt old)) name

/-! ## Names are looked up where they were set last -/

namespace History

theorem Sound.root (sound : h.Sound) : Sound (h ++ [.root]) := Grows.root sound

theorem Sound.spawn (sound : h.Sound) (inside : parent < h.size) : Sound (h ++ [.spawn parent]) :=
  Grows.spawn sound inside

theorem Sound.set (sound : h.Sound) (inside : scope < h.size) (name : String) (e : Expr) :
    Sound (h ++ [.set scope name e]) :=
  Grows.set sound (Nat.zero_le _) inside

/-- Nothing was set in a scope that is not there. -/
theorem lastSet?_beyond (sound : h.Sound) (beyond : h.size ≤ i) (name : String) : h.lastSet? i name = none := by
  induction sound with
  | refl => rfl
  | root grown ih => rw [lastSet?_root, ih (by simp at beyond; omega)]
  | spawn grown inside ih => rw [lastSet?_spawn, ih (by simp at beyond; omega)]
  | set grown new inside ih =>
    rw [size_set] at beyond
    rw [lastSet?_set, if_neg (by omega), ih beyond]

theorem getElem?_concat_cases {nodes : List ScopeNode} {last : ScopeNode} (found : (nodes ++ [last])[i]? = some node) :
    nodes[i]? = some node ∨ i = nodes.length ∧ node = last := by
  obtain inside | rfl | beyond := lt_trichotomy i nodes.length
  · exact .inl (by rwa [List.getElem?_append_left inside] at found)
  · exact .inr ⟨rfl, by simpa using found.symm⟩
  · simp [List.getElem?_eq_none (l := nodes ++ [last]) (i := i) (by simp; omega)] at found

/-- A scope has of each name what was set last. -/
theorem get?_own (sound : h.Sound) (found : h.forest.nodes[i]? = some node) (name : String) :
    Keyed.get? name node.own = h.lastSet? i name := by
  induction sound generalizing node with
  | refl => cases found
  | @root h grown ih =>
    rw [forest_concat] at found
    rw [lastSet?_root]
    obtain found | ⟨rfl, rfl⟩ := getElem?_concat_cases found
    · exact ih found
    · exact (lastSet?_beyond grown (length_nodes h).ge name).symm
  | @spawn h parent grown inside ih =>
    rw [forest_concat] at found
    rw [lastSet?_spawn]
    obtain found | ⟨rfl, rfl⟩ := getElem?_concat_cases found
    · exact ih found
    · exact (lastSet?_beyond grown (length_nodes h).ge name).symm
  | @set h scope key e grown new inside ih =>
    rw [forest_concat, change, Forest.set, List.getElem?_modify] at found
    obtain ⟨before, there, rfl⟩ := Option.map_eq_some_iff.1 found
    rw [lastSet?_set, ← ih there]
    split_ifs with same both both
    · rw [both.2, Keyed.get?_set_self]
    · exact Keyed.get?_set_of_ne (fun other => both ⟨same, other.symm⟩) e before.own
    · exact absurd both.1 same
    · rfl

/-- A name is looked up in the first scope outwards in which it was ever set, and stands for what was set
there last. -/
theorem lookupHolder_eq (sound : h.Sound) (i : ℕ) (name : String) :
    h.forest.lookupHolder i name = (h.outward i).findSome? fun s => (h.lastSet? s name).map fun e => (e, s) := by
  induction i using Nat.strong_induction_on with
  | _ i ih =>
    have parent_eq : h.parents[i]? = h.forest.nodes[i]?.map (·.parent) := by rw [← parents_forest, List.getElem?_map]
    rw [Forest.lookupHolder, outward, path, parent_eq]
    cases found : h.forest.nodes[i]? with
    | none =>
      have beyond : h.size ≤ i := length_nodes h ▸ List.getElem?_eq_none_iff.1 found
      simp [lastSet?_beyond sound beyond]
    | some node =>
      dsimp only [Option.map_some]
      rw [get?_own sound found]
      cases here : h.lastSet? i name with
      | some e => cases node.parent <;> simp [here]
      | none =>
        cases node.parent with
        | none => simp [here]
        | some parent =>
          dsimp only
          split_ifs with earlier
          · rw [ih parent earlier, List.findSome?_cons, here, Option.map_none, outward]
          · simp [here]

/-- Where the first of something is found along a path, it is found at one place anew if nothing is found before
that place. -/
theorem findSome?_update {α β : Type} [DecidableEq α] {f g : α → Option β} {place : α} {b : β}
    (there : g place = some b) (elsewhere : ∀ a, a ≠ place → g a = f a) (path : List α) :
    path.findSome? g =
      if place ∈ path ∧ ∀ a ∈ path.takeWhile (· ≠ place), f a = none then some b else path.findSome? f := by
  induction path with
  | nil => simp
  | cons a path ih =>
    by_cases same : a = place
    · subst same
      simp [there]
    · rw [List.findSome?_cons, List.findSome?_cons, elsewhere a same, ih]
      cases found : f a with
      | some b' => simp [same, found]
      | none => simp [same, Ne.symm same, found]

/-- Setting a name in a scope changes what this name stands for in the scopes from which this is the first one
outwards in which the name was set, and nothing else. -/
theorem lookupHolder_set (sound : h.Sound) (inside : scope < h.size) (name : String) (e : Expr) (i : ℕ) (key : String) :
    (key = name ∧ h.Reaches i scope name →
      (forest (h ++ [.set scope name e])).lookupHolder i key = some (e, scope)) ∧
    (¬ (key = name ∧ h.Reaches i scope name) →
      (forest (h ++ [.set scope name e])).lookupHolder i key = h.forest.lookupHolder i key) := by
  have outward_eq : outward (h ++ [.set scope name e]) i = h.outward i := by rw [outward, parents_set, outward]
  rw [lookupHolder_eq (sound.set inside name e), lookupHolder_eq sound, outward_eq]
  by_cases other : key = name
  · subst other
    have found : (lastSet? (h ++ [.set scope key e]) scope key).map (fun e => (e, scope)) = some (e, scope) := by
      simp [lastSet?_set]
    have elsewhere (s : ℕ) (apart : s ≠ scope) : (lastSet? (h ++ [.set scope key e]) s key).map (fun e => (e, s)) =
        (h.lastSet? s key).map fun e => (e, s) := by
      simp [lastSet?_set, Ne.symm apart]
    have updated := findSome?_update (f := fun s => (h.lastSet? s key).map fun e => (e, s)) found elsewhere (h.outward i)
    simp only [Option.map_eq_none_iff] at updated
    exact ⟨fun reaches => updated.trans (if_pos reaches.2),
      fun covered => updated.trans (if_neg fun reaches => covered ⟨rfl, reaches⟩)⟩
  · refine ⟨fun same => absurd same.1 other, fun _ => ?_⟩
    simp [lastSet?_set, Ne.symm other]

end History

/-- Evaluation sees the same binding, and the chain of scopes from the one that holds it. -/
theorem Forest.lookupHolder_scope (f : Forest) (i : ℕ) (name : String) :
    (f.scope i).lookupHolder name = (f.lookupHolder i name).map fun found => (found.1, f.scope found.2) := by
  induction i using Nat.strong_induction_on with
  | _ i ih =>
    rw [Forest.lookupHolder]
    cases found : f.nodes[i]? with
    | none =>
      rw [Forest.scope, Forest.chain, found]
      rfl
    | some node =>
      obtain ⟨own, parent?⟩ := node
      cases parent? with
      | none =>
        have seen : f.scope i = .root own := by rw [Forest.scope, Forest.chain, found]
        simp only [seen, Scope.lookupHolder]
        cases Keyed.get? name own with
        | none => rfl
        | some e => simp [seen]
      | some parent =>
        by_cases earlier : parent < i
        · have seen : f.scope i = .child own (f.scope parent) := by
            rw [Forest.scope, Forest.chain, found]
            exact if_pos earlier
          simp only [seen, Scope.lookupHolder]
          cases Keyed.get? name own with
          | none => simpa [earlier] using ih parent earlier
          | some e => simp [seen]
        · have seen : f.scope i = .root own := by
            rw [Forest.scope, Forest.chain, found]
            exact if_neg earlier
          simp only [seen, Scope.lookupHolder]
          cases Keyed.get? name own with
          | none => simp [earlier]
          | some e => simp [seen]

namespace Forest

variable (f : Forest)

/-- A new scope has no bindings and lies in the given one. -/
theorem scope_spawn (inside : parent < f.size) : (f.spawn parent).scope f.size = .child [] (f.scope parent) := by
  have added : (f.nodes ++ [⟨[], some parent⟩])[f.size]? = some ⟨[], some parent⟩ := List.getElem?_concat_length
  rw [spawn, scope, chain]
  simp only [added, if_pos inside]
  congr 1
  exact chain_congr fun j below => List.getElem?_append_left (below.trans_lt inside)

/-- Setting a name in a scope is setting it at the end of its chain. -/
theorem scope_set (inside : i < f.size) (name : String) (e : Expr) :
    (f.set i name e).scope i = (f.scope i).set name e := by
  have there : f.nodes[i]? = some f.nodes[i] := List.getElem?_eq_getElem inside
  have changed : (f.set i name e).nodes[i]? = some { f.nodes[i] with own := Keyed.set name e f.nodes[i].own } := by
    rw [set, List.getElem?_modify, there]
    simp
  rw [scope, chain, changed, scope, chain, there]
  obtain ⟨own, parent?⟩ := f.nodes[i]
  cases parent? with
  | none => rfl
  | some parent =>
    dsimp only
    split_ifs with earlier
    · rw [Scope.set]
      congr 1
      exact chain_congr fun j below => List.getElem?_modify_ne _ _ (by omega)
    · rfl

end Forest

end Folio
