import Mathlib.Data.List.Induction
import Folio.FileTree
import Folio.Proofs.FilePath

/-!
# What lies at the places of a tree

Two trees with the same nodes at all places cannot be told apart, so changes to a tree are
told place by place.  The paths here take no detours: they lead to the place of their
names, through directories only.
-/

namespace Folio.FileTree

variable {tree : FileTree} {place other : Place} {name : String} {names : List String} {node : FileNode}

/-! ## Putting and removing -/

theorem comparePlaces_eq_iff (a b : Place) : comparePlaces a b = .eq ↔ a = b := by
  induction a generalizing b with
  | nil => cases b <;> simp [comparePlaces]
  | cons x xs ih =>
    cases b with
    | nil => simp [comparePlaces]
    | cons y ys => simp [comparePlaces, Ordering.then_eq_eq, ih]

theorem get?_cons (here : Place) (node : FileNode) (rest : List (Place × FileNode)) (place : Place) :
    get? ⟨(here, node) :: rest⟩ place = if place = here then some node else get? ⟨rest⟩ place := by
  rw [get?, get?, List.find?_cons]
  by_cases same : here = place
  · simp [same]
  · have apart : (here == place) = false := by simpa using same
    simp [apart, Ne.symm same]

theorem get?_put (tree : FileTree) (place : Place) (node : FileNode) (other : Place) :
    (tree.put place node).get? other = if other = place then some node else tree.get? other := by
  obtain ⟨nodes⟩ := tree
  rw [put]
  dsimp only
  induction nodes with
  | nil => exact get?_cons place node [] other
  | cons first rest ih =>
    obtain ⟨here, old⟩ := first
    rw [putNode]
    split
    · exact get?_cons place node _ other
    · rename_i same
      obtain rfl := (comparePlaces_eq_iff place here).mp same
      simp only [get?_cons]
      split <;> rfl
    · rename_i after
      have apart : here ≠ place := fun same => by
        rw [(comparePlaces_eq_iff place here).mpr same.symm] at after
        contradiction
      rw [get?_cons, get?_cons, ih]
      split
      · rename_i found
        rw [if_neg (found ▸ apart)]
      · rfl

theorem get?_remove (tree : FileTree) (place other : Place) :
    (tree.remove place).get? other = if place <+: other then none else tree.get? other := by
  obtain ⟨nodes⟩ := tree
  rw [remove]
  dsimp only
  induction nodes with
  | nil => simp [get?]
  | cons first rest ih =>
    obtain ⟨here, node⟩ := first
    by_cases gone : place <+: here
    · rw [List.filter_cons_of_neg (by simpa [List.isPrefixOf_iff_prefix] using gone), ih, get?_cons]
      split
      · rfl
      · rename_i stays
        rw [if_neg (fun found : other = here => stays (found ▸ gone))]
    · rw [List.filter_cons_of_pos (by simpa [← List.isPrefixOf_iff_prefix] using gone), get?_cons, get?_cons, ih]
      split
      · rename_i found
        rw [if_neg (found ▸ gone)]
      · rfl

/-! ## Following names -/

theorem follow_append (tree : FileTree) (place : Place) (names more : List String) :
    tree.follow place (names ++ more) = (tree.follow place names).bind fun reached => tree.follow reached more := by
  induction names generalizing place with
  | nil => rfl
  | cons name names ih =>
    simp only [List.cons_append, follow, ih]
    cases tree.get? place with
    | none => rfl
    | some node =>
      cases node with
      | file bytes => rfl
      | directory =>
        dsimp only
        split
        · rfl
        · split
          · rfl
          · split <;> rfl

/-- Directories lead to the place, and it is one. -/
structure Open (view : Place → Option FileNode) (place : Place) : Prop where
  directories : ∀ above, above <+: place → view above = some .directory
  short : ∀ name ∈ place, name.utf8ByteSize ≤ maxNameLength
  straight : ".." ∉ place

theorem open_concat_iff {view : Place → Option FileNode} : Open view (place ++ [name]) ↔
    Open view place ∧ name ≠ ".." ∧ name.utf8ByteSize ≤ maxNameLength ∧ view (place ++ [name]) = some .directory := by
  constructor
  · rintro ⟨directories, short, straight⟩
    refine ⟨⟨fun above leads => ?_, fun n mem => short n (by simp [mem]), fun mem => straight (by simp [mem])⟩,
      fun up => straight (by simp [up]), short name (by simp), directories _ List.prefix_rfl⟩
    exact directories above (leads.trans (List.prefix_append ..))
  · rintro ⟨⟨directories, short, straight⟩, notUp, fits, here⟩
    refine ⟨fun above leads => ?_, fun n mem => ?_, ?_⟩
    · obtain rfl | leads := List.prefix_concat_iff.mp leads
      · exact here
      · exact directories above leads
    · obtain mem | same := List.mem_append.mp mem
      · exact short n mem
      · obtain rfl := List.mem_singleton.mp same
        exact fits
    · simp [straight, notUp.symm]

theorem follow_single (notUp : name ≠ "..") : tree.follow place [name] = .ok other ↔
    tree.get? place = some .directory ∧ name.utf8ByteSize ≤ maxNameLength ∧
      tree.get? (place ++ [name]) ≠ none ∧ other = place ++ [name] := by
  rw [follow]
  cases tree.get? place with
  | none => simp
  | some node =>
    cases node with
    | file bytes => simp
    | directory =>
      simp only [if_neg notUp, true_and]
      by_cases long : maxNameLength < name.utf8ByteSize
      · simp [if_pos long, Nat.not_le.mpr long]
      · rw [if_neg long]
        cases tree.get? (place ++ [name]) <;> simp [follow, Nat.not_lt.mp long, eq_comm]

theorem follow_concat (tree : FileTree) (names : List String) (name : String) :
    tree.follow [] (names ++ [name]) = .ok place ↔
      ∃ above, tree.follow [] names = .ok above ∧ tree.follow above [name] = .ok place := by
  rw [follow_append]
  cases tree.follow [] names <;> simp [Except.bind]

theorem follow_directory_iff (straight : ".." ∉ names) :
    (tree.follow [] names = .ok place ∧ tree.get? place = some .directory) ↔ place = names ∧ Open tree.get? names := by
  induction names using List.reverseRecOn generalizing place with
  | nil =>
    rw [follow]
    constructor
    · rintro ⟨⟨⟩, directory⟩
      refine ⟨rfl, fun above leads => ?_, by simp, by simp⟩
      rw [List.prefix_nil.mp leads]
      exact directory
    · rintro ⟨rfl, directories, -⟩
      exact ⟨rfl, directories _ List.prefix_rfl⟩
  | append_singleton names name ih =>
    simp only [List.mem_append, List.mem_singleton, not_or] at straight
    rw [follow_concat, open_concat_iff]
    constructor
    · rintro ⟨⟨above, reached, last⟩, directory⟩
      obtain ⟨opened, fits, -, rfl⟩ := (follow_single (Ne.symm straight.2)).mp last
      obtain ⟨rfl, way⟩ := (ih straight.1).mp ⟨reached, opened⟩
      exact ⟨rfl, way, Ne.symm straight.2, fits, directory⟩
    · rintro ⟨rfl, way, notUp, fits, directory⟩
      obtain ⟨reached, opened⟩ := (ih straight.1).mpr ⟨rfl, way⟩
      exact ⟨⟨names, reached, (follow_single notUp).mpr ⟨opened, fits, by simp [directory], rfl⟩⟩, directory⟩

theorem eq_of_follow (straight : ".." ∉ names) (reached : tree.follow [] names = .ok place) : place = names := by
  obtain rfl | ⟨names, name, rfl⟩ := List.eq_nil_or_concat names
  · cases reached
    rfl
  · simp only [List.concat_eq_append, List.mem_append, List.mem_singleton, not_or] at straight reached ⊢
    obtain ⟨above, before, last⟩ := (follow_concat tree names name).mp reached
    obtain ⟨directory, -, -, rfl⟩ := (follow_single (Ne.symm straight.2)).mp last
    rw [((follow_directory_iff straight.1).mp ⟨before, directory⟩).1]

/-! ## Making directories -/

theorem get?_makeBelow (straight : ".." ∉ names) (tree : FileTree) (place other : Place) :
    (tree.makeBelow place names).1.get? other = tree.get? other ∨
      tree.get? other = none ∧ (tree.makeBelow place names).1.get? other = some .directory ∧
        ∃ front, front ≠ [] ∧ front <+: names ∧ other = place ++ front := by
  induction names generalizing tree place with
  | nil => exact .inl rfl
  | cons name names ih =>
    simp only [List.mem_cons, not_or] at straight
    have deeper : ∀ front, front <+: names → name :: front <+: name :: names := fun front leads =>
      List.cons_prefix_cons.mpr ⟨rfl, leads⟩
    rw [makeBelow, if_neg (Ne.symm straight.1)]
    split
    · exact .inl rfl
    · cases found : tree.get? (place ++ [name]) with
      | some node =>
        cases node with
        | file bytes => exact .inl rfl
        | directory =>
          obtain same | ⟨none, made, front, -, leads, rfl⟩ := ih straight.2 tree (place ++ [name])
          · exact .inl same
          · exact .inr ⟨none, made, name :: front, by simp, deeper front leads, by simp⟩
      | none =>
        dsimp only
        have put := get?_put tree (place ++ [name]) .directory other
        obtain same | ⟨none, made, front, -, leads, rfl⟩ :=
          ih straight.2 (tree.put (place ++ [name]) .directory) (place ++ [name])
        · rw [same, put]
          split
          · rename_i here
            exact .inr ⟨here ▸ found, rfl, [name], by simp, deeper [] List.nil_prefix, here⟩
          · exact .inl rfl
        · refine .inr ⟨?_, made, name :: front, by simp, deeper front leads, by simp⟩
          rw [put] at none
          split at none
          · contradiction
          · exact none

theorem get?_makeBelow_of_fits (straight : ".." ∉ names) (short : ∀ name ∈ names, name.utf8ByteSize ≤ maxNameLength)
    {front : List String} (present : front ≠ []) (leads : front <+: names)
    (free : ∀ front, front ≠ [] → front <+: names →
      tree.get? (place ++ front) = none ∨ tree.get? (place ++ front) = some .directory) :
    (tree.makeBelow place names).1.get? (place ++ front) = some .directory := by
  induction names generalizing tree place front with
  | nil => exact absurd (List.prefix_nil.mp leads) present
  | cons name names ih =>
    simp only [List.mem_cons, not_or] at straight
    obtain ⟨first, rest, rfl⟩ := List.exists_cons_of_ne_nil present
    obtain ⟨rfl, further⟩ := List.cons_prefix_cons.mp leads
    rw [makeBelow, if_neg (Ne.symm straight.1), if_neg (Nat.not_lt.mpr (short first List.mem_cons_self))]
    have deeper : ∀ front, front ≠ [] → front <+: names →
        tree.get? (place ++ [first] ++ front) = none ∨ tree.get? (place ++ [first] ++ front) = some .directory := by
      intro front present leads
      simpa using free (first :: front) (by simp) (List.cons_prefix_cons.mpr ⟨rfl, leads⟩)
    have below : ∀ tree : FileTree, tree.get? (place ++ [first]) = some .directory →
        (∀ front, front ≠ [] → front <+: names →
          tree.get? (place ++ [first] ++ front) = none ∨ tree.get? (place ++ [first] ++ front) = some .directory) →
        (tree.makeBelow (place ++ [first]) names).1.get? (place ++ first :: rest) = some .directory := by
      intro tree here free
      by_cases last : rest = []
      · rw [last]
        obtain same | ⟨none, -⟩ := get?_makeBelow straight.2 tree (place ++ [first]) (place ++ [first])
        · rw [same, here]
        · rw [none] at here
          contradiction
      · have made := ih straight.2 (fun n mem => short n (List.mem_cons_of_mem _ mem)) last further free
        simpa using made
    cases found : tree.get? (place ++ [first]) with
    | some node =>
      cases node with
      | file bytes =>
        have blocked := free [first] (by simp) (List.cons_prefix_cons.mpr ⟨rfl, List.nil_prefix⟩)
        simp [found] at blocked
      | directory => exact below tree found deeper
    | none =>
      refine below _ (by rw [get?_put, if_pos rfl]) fun front present leads => ?_
      rw [get?_put, if_neg (by simpa using present)]
      exact deeper front present leads

/-- The directories that lead to a place can be made if nothing but directories stands there. -/
theorem open_makeBelow_iff (straight : ".." ∉ names) : Open (tree.makeBelow [] names).1.get? names ↔
    tree.get? [] = some .directory ∧
      (∀ above, above <+: names → tree.get? above = none ∨ tree.get? above = some .directory) ∧
      ∀ name ∈ names, name.utf8ByteSize ≤ maxNameLength := by
  constructor
  · rintro ⟨directories, short, -⟩
    have before : ∀ above, above <+: names →
        tree.get? above = some .directory ∨ tree.get? above = none ∧ above ≠ [] := by
      intro above leads
      obtain same | ⟨none, -, front, present, -, rfl⟩ := get?_makeBelow straight tree [] above
      · exact .inl (same ▸ directories above leads)
      · exact .inr ⟨none, present⟩
    refine ⟨?_, fun above leads => ((before above leads).imp_right And.left).symm, short⟩
    exact (before [] List.nil_prefix).resolve_right fun none => none.2 rfl
  · rintro ⟨root, free, short⟩
    refine ⟨fun above leads => ?_, short, straight⟩
    by_cases top : above = []
    · obtain same | ⟨none, -⟩ := get?_makeBelow straight tree [] above
      · rw [same, top, root]
      · rw [top, root] at none
        contradiction
    · exact get?_makeBelow_of_fits straight short top leads fun front _ => free front

theorem get?_of_open_makeBelow (straight : ".." ∉ names) (made : Open (tree.makeBelow [] names).1.get? names)
    (place : Place) :
    (tree.makeBelow [] names).1.get? place = if place <+: names then some .directory else tree.get? place := by
  split
  · rename_i leads
    exact made.directories place leads
  · rename_i away
    obtain same | ⟨-, -, front, -, leads, rfl⟩ := get?_makeBelow straight tree [] place
    · exact same
    · exact absurd leads away

/-! ## Files -/

theorem startOf_top (path : String) : startOf [] path = [] := by
  rw [startOf]
  split <;> rfl

theorem follow_of_resolve {path : String} (reached : tree.resolve [] path = .ok place) :
    tree.follow [] (FilePath.namesOf path) = .ok place := by
  rw [resolve, startOf_top] at reached
  split at reached
  · contradiction
  · split at reached
    · split at reached
      · contradiction
      · rename_i followed _
        rwa [← Except.ok.inj reached]
    · contradiction

section Named

variable {path : String} (named : FilePath.namesOf path = names ++ [name]) (straight : ".." ∉ names)
  (notUp : name ≠ "..")

include named straight notUp

theorem destination_eq_ok_iff : tree.destination [] path = .ok place ↔
    Open tree.get? names ∧ name.utf8ByteSize ≤ maxNameLength ∧ place = names ++ [name] := by
  have reaches : Open tree.get? names ↔
      ∃ above, tree.follow [] names = .ok above ∧ tree.get? above = some .directory := by
    constructor
    · exact fun way => ⟨names, (follow_directory_iff straight).mpr ⟨rfl, way⟩⟩
    · rintro ⟨above, reached⟩
      exact ((follow_directory_iff straight).mp reached).2
  rw [destination, named, List.reverse_concat, startOf_top]
  simp only [List.reverse_reverse]
  cases reached : tree.follow [] names with
  | error fault => simp [reaches, reached]
  | ok above =>
    by_cases directory : tree.get? above = some .directory
    · obtain ⟨rfl, way⟩ := (follow_directory_iff straight).mp ⟨reached, directory⟩
      by_cases long : maxNameLength < name.utf8ByteSize
      · simp [isDirectoryAt, directory, notUp, if_pos long, Nat.not_le.mpr long]
      · simp [isDirectoryAt, directory, notUp, if_neg long, Nat.not_lt.mp long, way, eq_comm]
    · simp [isDirectoryAt, directory, reaches, reached]

theorem writeFile_eq_ok_iff {bytes : List UInt8} {written : FileTree} : tree.writeFile [] path bytes = .ok written ↔
    Open tree.get? names ∧ name.utf8ByteSize ≤ maxNameLength ∧ tree.get? (names ++ [name]) ≠ some .directory ∧
      written = tree.put (names ++ [name]) (.file bytes) := by
  rw [writeFile]
  cases reached : tree.destination [] path with
  | error fault =>
    refine iff_of_false (by simp) fun ⟨way, fits, _⟩ => ?_
    rw [(destination_eq_ok_iff named straight notUp).mpr ⟨way, fits, rfl⟩] at reached
    contradiction
  | ok place =>
    obtain ⟨way, fits, rfl⟩ := (destination_eq_ok_iff named straight notUp).mp reached
    by_cases directory : tree.get? (names ++ [name]) = some .directory
    · simp [isDirectoryAt, directory]
    · have free : tree.isDirectoryAt (names ++ [name]) = false := by simpa [isDirectoryAt] using directory
      simp only [free, Bool.false_eq_true, if_false, Except.ok.injEq]
      exact ⟨fun same => ⟨way, fits, directory, same.symm⟩, fun ⟨_, _, _, same⟩ => same.symm⟩

theorem follow_named_iff : tree.follow [] (FilePath.namesOf path) = .ok place ↔ Open tree.get? names ∧
    name.utf8ByteSize ≤ maxNameLength ∧ tree.get? (names ++ [name]) ≠ none ∧ place = names ++ [name] := by
  rw [named, follow_concat]
  constructor
  · rintro ⟨above, reached, last⟩
    obtain ⟨directory, fits, found, rfl⟩ := (follow_single notUp).mp last
    obtain ⟨rfl, way⟩ := (follow_directory_iff straight).mp ⟨reached, directory⟩
    exact ⟨way, fits, found, rfl⟩
  · rintro ⟨way, fits, found, rfl⟩
    obtain ⟨reached, directory⟩ := (follow_directory_iff straight).mpr ⟨rfl, way⟩
    exact ⟨names, reached, (follow_single notUp).mpr ⟨directory, fits, found, rfl⟩⟩

omit straight notUp in
theorem resolve_named : tree.resolve [] path = (tree.follow [] (FilePath.namesOf path)).bind fun place =>
    if path.endsWith "/" && !tree.isDirectoryAt place then .error .notDirectory else .ok place := by
  have present : path.isEmpty = false := by
    refine Bool.eq_false_iff.mpr fun empty => ?_
    obtain rfl : path = "" := by simpa using empty
    have none : FilePath.namesOf "" = [] := rfl
    simp [none] at named
  rw [resolve, present, startOf_top]
  cases tree.follow [] (FilePath.namesOf path) <;> rfl

/-- A file is moved inside its directory. -/
theorem moveFile_eq_ok_iff {target new : String} {moved : FileTree} (whole : path.endsWith "/" = false)
    (targetNamed : FilePath.namesOf target = names ++ [new]) (newNotUp : new ≠ "..") :
    tree.moveFile [] path target = .ok moved ↔
      Open tree.get? names ∧ name.utf8ByteSize ≤ maxNameLength ∧ new.utf8ByteSize ≤ maxNameLength ∧
        tree.get? (names ++ [new]) ≠ some .directory ∧ ∃ node, tree.get? (names ++ [name]) = some node ∧
          moved = (tree.remove (names ++ [name])).put (names ++ [new]) node := by
  have resolved : ∀ place, tree.resolve [] path = .ok place ↔ tree.follow [] (FilePath.namesOf path) = .ok place := by
    intro place
    rw [resolve_named named, whole]
    cases tree.follow [] (FilePath.namesOf path) <;> simp [Except.bind]
  have source := fun place => (resolved place).trans (follow_named_iff named straight notUp)
  have goal : ∀ place, tree.destination [] target = .ok place ↔
      Open tree.get? names ∧ new.utf8ByteSize ≤ maxNameLength ∧ place = names ++ [new] :=
    fun _ => destination_eq_ok_iff targetNamed straight newNotUp
  rw [moveFile]
  cases old : tree.resolve [] path with
  | error fault =>
    refine iff_of_false (by simp) fun ⟨way, fits, _, _, node, found, _⟩ => ?_
    rw [(source _).mpr ⟨way, fits, by simp [found], rfl⟩] at old
    contradiction
  | ok place =>
    obtain ⟨way, fits, present, rfl⟩ := (source place).mp old
    obtain ⟨node, found⟩ := Option.ne_none_iff_exists'.mp present
    cases reached : tree.destination [] target with
    | error fault =>
      refine iff_of_false (by simp) fun ⟨_, _, newFits, _⟩ => ?_
      rw [(goal _).mpr ⟨way, newFits, rfl⟩] at reached
      contradiction
    | ok place =>
      obtain ⟨-, newFits, rfl⟩ := (goal place).mp reached
      by_cases directory : tree.get? (names ++ [new]) = some .directory
      · simp [isDirectoryAt, directory]
      · have free : tree.isDirectoryAt (names ++ [new]) = false := by simpa [isDirectoryAt] using directory
        simp only [free, Bool.false_eq_true, if_false, found, Except.ok.injEq]
        constructor
        · exact fun same => ⟨way, fits, newFits, directory, node, rfl, same.symm⟩
        · rintro ⟨-, -, -, -, other, there, same⟩
          cases there
          exact same.symm

end Named

/-! ## Reading -/

theorem follow_congr {a b : FileTree} (same : a.get? = b.get?) (place : Place) (names : List String) :
    a.follow place names = b.follow place names := by
  induction names generalizing place with
  | nil => rfl
  | cons name names ih => simp only [follow, same, ih]

theorem readFile_congr {a b : FileTree} (same : a.get? = b.get?) (working : Place) (path : String) :
    a.readFile working path = b.readFile working path := by
  simp only [readFile, resolve, isDirectoryAt, follow_congr same, same]
  rfl

/-- A file with these bytes lies at the place, at the end of a way through directories. -/
structure Lies (view : Place → Option FileNode) (place : Place) (bytes : List UInt8) : Prop where
  way : ∃ names name, place = names ++ [name] ∧ Open view names ∧ name ≠ ".." ∧ name.utf8ByteSize ≤ maxNameLength
  here : view place = some (.file bytes)

theorem Lies.readFile {path : String} {bytes : List UInt8} (lies : Lies tree.get? (FilePath.namesOf path) bytes) :
    tree.readFile [] path = if path.endsWith "/" then .error .notDirectory else .ok bytes := by
  obtain ⟨⟨names, name, named, way, notUp, fits⟩, here⟩ := lies
  have reached : tree.follow [] (FilePath.namesOf path) = .ok (names ++ [name]) :=
    (follow_named_iff named way.straight notUp).mpr ⟨way, fits, by simp [← named, here], rfl⟩
  rw [FileTree.readFile, resolve_named named, reached]
  rw [named] at here
  cases path.endsWith "/" <;> simp [Except.bind, isDirectoryAt, here]

/-! ## Trees of file systems -/

structure WellFormed (tree : FileTree) : Prop where
  top : tree.get? [] = some .directory
  distinct : (tree.nodes.map Prod.fst).Nodup
  named : ∀ node ∈ tree.nodes, ∀ name ∈ node.1, FilePath.Plain name ∧ name.utf8ByteSize ≤ maxNameLength
  nested : ∀ place name, tree.get? (place ++ [name]) ≠ none → tree.get? place = some .directory

theorem get?_eq_some_iff (distinct : (tree.nodes.map Prod.fst).Nodup) :
    tree.get? place = some node ↔ (place, node) ∈ tree.nodes := by
  obtain ⟨nodes⟩ := tree
  dsimp only at distinct ⊢
  induction nodes with
  | nil => simp [get?]
  | cons first rest ih =>
    obtain ⟨here, old⟩ := first
    simp only [List.map_cons, List.nodup_cons, List.mem_map, not_exists, not_and] at distinct
    rw [get?_cons, List.mem_cons, Prod.mk.injEq, ← ih distinct.2]
    split
    · rename_i same
      subst same
      have absent : get? ⟨rest⟩ place ≠ some node := fun found =>
        distinct.1 _ ((ih distinct.2).mp found) rfl
      simp [absent, eq_comm]
    · simp_all

theorem wellFormed_iff : tree.WellFormed ↔
    tree.get? [] = some .directory ∧ (tree.nodes.map Prod.fst).Nodup ∧
      (∀ node ∈ tree.nodes, ∀ name ∈ node.1, FilePath.Plain name ∧ name.utf8ByteSize ≤ maxNameLength) ∧
      ∀ node ∈ tree.nodes, node.1 ≠ [] → tree.get? node.1.dropLast = some .directory := by
  constructor
  · rintro ⟨top, distinct, named, nested⟩
    refine ⟨top, distinct, named, fun ⟨place, node⟩ known below => ?_⟩
    obtain ⟨names, name, rfl⟩ := (List.eq_nil_or_concat place).resolve_left below
    rw [List.concat_eq_append] at known ⊢
    simpa using nested names name (by simp [(get?_eq_some_iff distinct).mpr known])
  · rintro ⟨top, distinct, named, nested⟩
    refine ⟨top, distinct, named, fun place name present => ?_⟩
    obtain ⟨node, found⟩ := Option.ne_none_iff_exists'.mp present
    simpa using nested _ ((get?_eq_some_iff distinct).mp found) (by simp)

instance (tree : FileTree) : Decidable tree.WellFormed :=
  decidable_of_iff' _ wellFormed_iff

namespace WellFormed

theorem opened (formed : tree.WellFormed) (found : tree.get? place = some .directory) : Open tree.get? place := by
  induction place using List.reverseRecOn with
  | nil =>
    refine ⟨fun above leads => ?_, by simp, by simp⟩
    rw [List.prefix_nil.mp leads, formed.top]
  | append_singleton place name ih =>
    obtain ⟨plain, fits⟩ := formed.named _ ((get?_eq_some_iff formed.distinct).mp found) name (by simp)
    exact open_concat_iff.mpr ⟨ih (formed.nested place name (by simp [found])), plain.notUp, fits, found⟩

theorem lies (formed : tree.WellFormed) {bytes : List UInt8} (found : tree.get? place = some (.file bytes)) :
    Lies tree.get? place bytes := by
  refine ⟨?_, found⟩
  obtain rfl | ⟨names, name, rfl⟩ := List.eq_nil_or_concat place
  · simp [formed.top] at found
  · rw [List.concat_eq_append] at found ⊢
    obtain ⟨plain, fits⟩ := formed.named _ ((get?_eq_some_iff formed.distinct).mp found) name (by simp)
    exact ⟨names, name, rfl, formed.opened (formed.nested names name (by simp [found])), plain.notUp, fits⟩

end WellFormed

end Folio.FileTree
