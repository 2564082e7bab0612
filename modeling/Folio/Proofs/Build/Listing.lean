import Mathlib.Data.List.Basic
import Folio.Proofs.Build.Kept

/-!
# What a listing does not show

A listing of the files below a directory shows no directories and no contents.  So it is the same
before and after files are written, if it shows neither those nor the names under which they are
written at first, and a path to a directory or to a file that stays leads to the same place.

Main statements: `Runs.findFiles`, `resolve_of_kept`.
-/

namespace Folio

namespace FileTree

variable {α : Type} {tree a b : FileTree} {place other : Place} {path directory : String} {h : Place → Option α}

/-! ## Listings -/

/-- What is seen of a node, if it is a file. -/
def seen (h : Place → Option α) : Place × FileNode → Option α
  | (place, .file _) => h place
  | (_, .directory) => none

/-- What is seen of the files of a tree, in order, by their places. -/
def findFiles (h : Place → Option α) (tree : FileTree) : List α :=
  tree.nodes.filterMap (seen h)

theorem get?_of_mem {node : FileNode} (known : (place, node) ∈ tree.nodes) : tree.get? place ≠ none := by
  intro absent
  rw [get?, Option.map_eq_none_iff, List.find?_eq_none] at absent
  simpa using absent _ known

theorem findFiles_putFile (unseen : h place = none) (tree : FileTree) (bytes : List UInt8) :
    (tree.put place (.file bytes)).findFiles h = tree.findFiles h := by
  obtain ⟨nodes⟩ := tree
  have unseen : ∀ bytes, seen h (place, .file bytes) = none := fun _ => unseen
  simp only [findFiles, put]
  induction nodes with
  | nil => simp [putNode, unseen]
  | cons first rest ih =>
    obtain ⟨here, old⟩ := first
    rw [putNode]
    split
    · rw [List.filterMap_cons_none (unseen bytes)]
    · rename_i same
      obtain rfl := (comparePlaces_eq_iff place here).1 same
      rw [List.filterMap_cons_none (unseen bytes)]
      cases old with
      | file old => rw [List.filterMap_cons_none (unseen old)]
      | directory => rw [List.filterMap_cons_none rfl]
    · rw [List.filterMap_cons, List.filterMap_cons, ih]

theorem findFiles_putDirectory (h : Place → Option α) (free : tree.get? place = none) :
    (tree.put place .directory).findFiles h = tree.findFiles h := by
  obtain ⟨nodes⟩ := tree
  simp only [findFiles, put]
  induction nodes with
  | nil => rfl
  | cons first rest ih =>
    obtain ⟨here, old⟩ := first
    rw [get?_cons] at free
    split at free
    · cases free
    · rename_i apart
      rw [putNode]
      split
      · rw [List.filterMap_cons_none rfl]
      · rename_i same
        exact absurd ((comparePlaces_eq_iff place here).1 same) apart
      · rw [List.filterMap_cons, List.filterMap_cons, ih free]

theorem findFiles_makeBelow (h : Place → Option α) (tree : FileTree) (place : Place) (names : List String) :
    (tree.makeBelow place names).1.findFiles h = tree.findFiles h := by
  induction names generalizing tree place with
  | nil => rfl
  | cons name names ih =>
    rw [makeBelow]
    split
    · exact ih tree _
    split
    · rfl
    · cases next : tree.get? (place ++ [name]) with
      | none => rw [ih, findFiles_putDirectory h next]
      | some node =>
        cases node with
        | file bytes => rfl
        | directory => exact ih tree _

theorem findFiles_remove (unseen : ∀ other, place <+: other → tree.get? other ≠ none → h other = none) :
    (tree.remove place).findFiles h = tree.findFiles h := by
  rw [findFiles, findFiles, remove, List.filterMap_filter]
  refine List.filterMap_congr fun node known => ?_
  split
  · rfl
  · rename_i gone
    obtain ⟨other, _ | bytes⟩ := node
    · rfl
    · exact (unseen other (by simpa using gone) (get?_of_mem known)).symm

/-- The files below a directory, as far as they count. -/
def shownBelow (directory : String) (excluded : Option String) (place other : Place) : Option FoundFile :=
  if place.isPrefixOf other && other != place then
    foundFile? directory excluded (other.drop place.length, .file [])
  else none

theorem filesIn_eq {excluded : Option String} (here : tree.isDirectory [] directory = true) :
    tree.filesIn directory excluded = .ok (tree.findFiles (shownBelow directory excluded (placeOf directory))) := by
  obtain ⟨reached, here⟩ := isDirectory_iff.1 here
  rw [filesIn, reached]
  simp only [here, Option.toList_some, List.map_cons, List.map_nil, List.filterMap_append, findFiles, below,
    List.filterMap_filterMap]
  congr 1
  refine List.filterMap_congr fun node known => ?_
  obtain ⟨other, _ | bytes⟩ := node
  · dsimp only
    split <;> rfl
  · dsimp only [seen, shownBelow]
    split <;> rfl

theorem exists_of_shownBelow {excluded : Option String} {file : FoundFile}
    (found : shownBelow directory excluded place other = some file) :
    ∃ names, other = place ++ names ∧ file.path = names.foldl FilePath.join directory := by
  rw [shownBelow] at found
  split at found
  · rename_i inside
    obtain ⟨⟨names, rfl⟩, -⟩ : place <+: other ∧ other ≠ place := by simpa using inside
    rw [List.drop_left, foundFile?] at found
    split_ifs at found
    cases found
    exact ⟨names, rfl, rfl⟩
  · cases found

theorem placeOf_foldl_join {names : List String} (plain : ∀ name ∈ names, FilePath.Plain name) (directory : String) :
    placeOf (names.foldl FilePath.join directory) = placeOf directory ++ names :=
  placeOf_eq_append (FilePath.namesOf_foldl_join plain directory) fun up => (plain _ up).notUp rfl

/-! ## Paths -/

/-- Names still lead to a place if all directories are left, and what lies at the place. -/
theorem follow_of_kept {names : List String} (directories : ∀ place, a.get? place = some .directory →
      b.get? place = some .directory) (same : b.get? other = a.get? other) (reached : a.follow place names = .ok other) :
    b.follow place names = .ok other := by
  induction names generalizing place with
  | nil => exact reached
  | cons name names ih =>
    rw [follow] at reached ⊢
    cases here : a.get? place with
    | none => simp [here] at reached
    | some node =>
      cases node with
      | file bytes => simp [here] at reached
      | directory =>
        simp only [here] at reached
        rw [directories place here]
        dsimp only
        split_ifs at reached ⊢ with up long
        · exact ih reached
        · cases next : a.get? (place ++ [name]) with
          | none => simp [next] at reached
          | some node =>
            simp only [next] at reached
            have still : b.get? (place ++ [name]) ≠ none := by
              cases node with
              | directory => simp [directories _ next]
              | file bytes =>
                cases names with
                | nil =>
                  cases reached
                  simp [same, next]
                | cons => simp [follow, next] at reached
            obtain ⟨node', next'⟩ := Option.ne_none_iff_exists'.1 still
            simp only [next']
            exact ih reached

theorem resolve_of_kept (directories : ∀ place, a.get? place = some .directory → b.get? place = some .directory)
    (same : b.get? place = a.get? place) (reached : a.resolve [] path = .ok place) : b.resolve [] path = .ok place := by
  have followed := follow_of_resolve reached
  rw [resolve, startOf_top] at reached ⊢
  split_ifs at reached ⊢ with empty
  rw [followed] at reached
  rw [follow_of_kept directories same followed]
  dsimp only at reached ⊢
  rwa [isDirectoryAt, same]

theorem isDirectory_of_kept (directories : ∀ place, a.get? place = some .directory → b.get? place = some .directory)
    (here : a.isDirectory [] path = true) : b.isDirectory [] path = true := by
  obtain ⟨reached, directory⟩ := isDirectory_iff.1 here
  have still := directories _ directory
  exact isDirectory_iff.2 ⟨resolve_of_kept directories (still.trans directory.symm) reached, still⟩

theorem readFile_of_kept {bytes : List UInt8}
    (directories : ∀ place, a.get? place = some .directory → b.get? place = some .directory)
    (same : b.get? (placeOf path) = a.get? (placeOf path)) (read : a.readFile [] path = .ok bytes) :
    b.readFile [] path = .ok bytes := by
  rw [readFile] at read ⊢
  split at read
  · rename_i place reached
    obtain rfl := placeOf_of_resolve reached
    rw [resolve_of_kept directories same reached]
    dsimp only
    rw [same]
    exact read
  · cases read

end FileTree

/-! ## Runs -/

variable {α : Type} {p : Plan} {t : BuildTask} {tasks : List BuildTask} {a b tree : FileTree} {o : Output}
  {h : Place → Option α}

theorem Output.findFiles_writtenTo (straight : ".." ∉ o.directory) (ready : o.Ready tree.get?)
    (nested : Output.Nested tree.get?) (target : h o.target = none) (temporary : h o.temporary = none) :
    (o.writtenTo tree).findFiles h = tree.findFiles h := by
  have way := (FileTree.open_makeBelow_iff straight).2 ⟨ready.root, ready.free, ready.short⟩
  rw [writtenTo, FileTree.findFiles_putFile target, FileTree.findFiles_remove,
    FileTree.findFiles_putFile temporary, FileTree.findFiles_makeBelow]
  intro other below present
  by_cases here : other = o.temporary
  · exact here ▸ temporary
  · rw [get?_between straight way, if_neg here, if_neg fun leads => o.temporary_not_above (below.trans leads),
      nested.eq_none ready.temporary below here] at present
    exact absurd rfl present

theorem Does.findFiles (placed : t.Placed p.output) (done : Does p t a b) (nested : Output.Nested a.get?)
    (unseen : ∀ place, t.Touches p.output place → h place = none) : b.findFiles h = a.findFiles h := by
  obtain ⟨bytes, made, wrote⟩ := does_iff.1 done
  have meant := placed.at bytes
  have ready := (Output.ready_of_writeOutput meant wrote).1
  obtain ⟨-, rfl⟩ := Prod.mk.inj ((Output.perform_writeOutput meant ready).symm.trans wrote)
  refine Output.findFiles_writtenTo meant.straight.1 ready nested (unseen _ (.inl ?_)) (unseen _ (.inr ?_))
  · rw [placed.placeOf_target, meant.named]
  · rw [placed.placeOf_temporary, meant.namesOf_temporaryPath]

/-- A run is not seen by what does not look where its tasks write. -/
theorem Runs.findFiles (placed : ∀ t ∈ tasks, t.Placed p.output) (run : Runs p a tasks b)
    (nested : Output.Nested a.get?) (unseen : ∀ t ∈ tasks, ∀ place, t.Touches p.output place → h place = none) :
    b.findFiles h = a.findFiles h := by
  induction run with
  | nil => rfl
  | @cons a between b t tasks done rest ih =>
    obtain ⟨first, others⟩ := List.forall_mem_cons.1 placed
    obtain ⟨here, later⟩ := List.forall_mem_cons.1 unseen
    have single : Runs p a [t] between := .cons done (.nil between)
    have after := (single.nested (List.forall_mem_singleton.2 first) nested).1
    rw [ih others after later, done.findFiles first nested here]

end Folio
