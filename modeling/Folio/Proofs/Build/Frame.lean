import Folio.Build.Basic
import Folio.Proofs.Build.Runs
import Folio.Proofs.FileTree
import Folio.Proofs.FileWork

/-!
# What a build leaves alone

A path may take detours, but what it leads to lies at a place that its names alone tell.  Each
operation on files touches the place of its path and what lies below, so that a file at another
place keeps its bytes.  A task touches two places, the one of its file and the one at which that
is written at first, and a run of tasks those of its tasks.

Main statement: `lies_runTasks`.
-/

namespace Folio

open FilePath (namesOf)

namespace FileTree

variable {tree after : FileTree} {place other : Place} {names : List String} {path source target : String}
  {view view' : Place → Option FileNode} {bytes content : List UInt8} {node : FileNode}

/-! ## Where paths lead -/

/-- Where names lead from a place, provided that there are directories on the way. -/
def walk (place : Place) (names : List String) : Place :=
  names.foldl (fun place name => if name = ".." then place.dropLast else place ++ [name]) place

def placeOf (path : String) : Place :=
  walk [] (namesOf path)

theorem walk_append (place : Place) (names more : List String) :
    walk place (names ++ more) = walk (walk place names) more :=
  List.foldl_append

theorem walk_of_straight (straight : ".." ∉ names) (place : Place) : walk place names = place ++ names := by
  induction names generalizing place with
  | nil => simp [walk]
  | cons name names ih =>
    simp only [List.mem_cons, not_or] at straight
    have rest := ih straight.2 (place ++ [name])
    rw [walk, List.foldl_cons, if_neg (Ne.symm straight.1)]
    simpa [walk] using rest

theorem placeOf_of_straight (straight : ".." ∉ namesOf path) : placeOf path = namesOf path :=
  (walk_of_straight straight []).trans (List.nil_append _)

theorem placeOf_eq_append {base : String} (named : namesOf path = namesOf base ++ names) (straight : ".." ∉ names) :
    placeOf path = placeOf base ++ names := by
  rw [placeOf, named, walk_append, walk_of_straight straight, placeOf]

theorem walk_of_follow (reached : tree.follow place names = .ok other) : other = walk place names := by
  induction names generalizing place with
  | nil =>
    cases reached
    rfl
  | cons name names ih =>
    rw [walk, List.foldl_cons]
    rw [follow] at reached
    cases here : tree.get? place with
    | none => simp [here] at reached
    | some node =>
      cases node with
      | file bytes => simp [here] at reached
      | directory =>
        simp only [here] at reached
        split_ifs at reached ⊢ with up long
        · exact ih reached
        · cases found : tree.get? (place ++ [name]) with
          | none => simp [found] at reached
          | some node =>
            simp only [found] at reached
            exact ih reached

theorem placeOf_of_resolve (reached : tree.resolve [] path = .ok place) : place = placeOf path :=
  walk_of_follow (follow_of_resolve reached)

theorem placeOf_of_destination (reached : tree.destination [] path = .ok place) : place = placeOf path := by
  rw [destination, startOf_top] at reached
  split at reached
  · cases reached
  · rename_i name before reversed
    have spelled : namesOf path = before.reverse ++ [name] := by
      rw [← List.reverse_reverse (namesOf path), reversed, List.reverse_cons]
    split at reached
    · rename_i above followed
      split_ifs at reached with noDirectory up long
      cases reached
      rw [placeOf, spelled, walk_append, ← walk_of_follow followed, walk_of_straight (by simpa using Ne.symm up)]
    · cases reached

theorem isDirectory_iff : tree.isDirectory [] path = true ↔
    tree.resolve [] path = .ok (placeOf path) ∧ tree.get? (placeOf path) = some .directory := by
  rw [isDirectory]
  constructor
  · intro here
    split at here
    · rename_i place reached
      obtain rfl := placeOf_of_resolve reached
      exact ⟨reached, by simpa [isDirectoryAt] using here⟩
    · cases here
  · rintro ⟨reached, here⟩
    rw [reached]
    simpa [isDirectoryAt] using here

/-- Where a path with an extension leads, the last name has this extension. -/
theorem extension_of_placeOf {extension : String} (found : FilePath.extension? path = some extension) :
    ∃ above name, placeOf path = above ++ [name] ∧ FilePath.extensionOf? name = some extension := by
  obtain ⟨name, called, proper⟩ := Option.bind_eq_some_iff.1 found
  rw [FilePath.fileName?] at called
  split at called
  · rename_i last ends
    split_ifs at called with detour
    cases called
    obtain ⟨notUp, notHere⟩ := not_or.1 detour
    obtain ⟨before, spelled⟩ : ∃ before, namesOf path = before ++ [name] := by
      obtain none | ⟨before, other, spelled⟩ := List.eq_nil_or_concat (namesOf path)
      · -- A path without names is called nothing but `.`.
        rw [FilePath.parts, none] at ends
        split at ends
        · exact absurd (Option.some.inj ends).symm notHere
        · cases ends
      · rw [List.concat_eq_append] at spelled
        rw [FilePath.parts, spelled] at ends
        have same : other = name := by
          split at ends <;> simpa [List.getLast?_cons] using ends
        exact ⟨before, same ▸ spelled⟩
    refine ⟨walk [] before, name, ?_, proper⟩
    rw [placeOf, spelled, walk_append, walk_of_straight (by simpa using Ne.symm notUp)]
  · cases called

/-- Paths to one place have one extension. -/
theorem extension_eq_of_placeOf {other extension otherExtension : String} (same : placeOf path = placeOf other)
    (found : FilePath.extension? path = some extension) (found' : FilePath.extension? other = some otherExtension) :
    extension = otherExtension := by
  obtain ⟨above, name, ends, proper⟩ := extension_of_placeOf found
  obtain ⟨above', name', ends', proper'⟩ := extension_of_placeOf found'
  obtain ⟨-, names⟩ := List.append_inj' (ends.symm.trans (same.trans ends')) rfl
  obtain rfl := List.singleton_inj.1 names
  exact Option.some.inj (proper.symm.trans proper')

/-! ## What operations leave alone -/

/-- On the way to a file there are directories. -/
theorem Lies.above (lies : Lies view place bytes) (leads : other <+: place) :
    other = place ∨ view other = some .directory := by
  obtain ⟨⟨names, name, rfl, way, -⟩, -⟩ := lies
  obtain same | leads := List.prefix_concat_iff.1 leads
  · exact .inl same
  · exact .inr (way.directories other leads)

/-- A file stays where it is if nothing on the way to it is changed. -/
theorem Lies.of_kept (lies : Lies view place bytes)
    (kept : ∀ above node, above <+: place → view above = some node → view' above = some node) :
    Lies view' place bytes := by
  refine ⟨?_, kept place _ List.prefix_rfl lies.here⟩
  obtain ⟨names, name, rfl, way, notUp, fits⟩ := lies.way
  refine ⟨names, name, rfl, ⟨fun above leads => ?_, way.short, way.straight⟩, notUp, fits⟩
  exact kept above _ (leads.trans (List.prefix_append ..)) (way.directories above leads)

theorem Lies.put (lies : Lies tree.get? place bytes) (free : tree.get? other ≠ some .directory)
    (apart : place ≠ other) (node : FileNode) : Lies (tree.put other node).get? place bytes := by
  refine lies.of_kept fun above found leads here => ?_
  rw [get?_put, if_neg, here]
  rintro rfl
  obtain same | directory := lies.above leads
  · exact apart same.symm
  · exact free directory

theorem Lies.remove (lies : Lies tree.get? place bytes) (outside : ¬ other <+: place) :
    Lies (tree.remove other).get? place bytes := by
  refine lies.of_kept fun above found leads here => ?_
  rw [get?_remove, if_neg fun below => outside (below.trans leads), here]

/-- Nothing lies below what is no directory. -/
theorem Lies.outside (lies : Lies tree.get? place bytes) (free : tree.get? other ≠ some .directory)
    (apart : place ≠ other) : ¬ other <+: place := by
  intro leads
  obtain same | directory := lies.above leads
  · exact apart same.symm
  · exact free directory

theorem get?_makeBelow_of_some (found : tree.get? other = some node) (place : Place) (names : List String) :
    (tree.makeBelow place names).1.get? other = some node := by
  induction names generalizing tree place with
  | nil => exact found
  | cons name names ih =>
    rw [makeBelow]
    split
    · exact ih found _
    split
    · exact found
    · cases next : tree.get? (place ++ [name]) with
      | some there =>
        cases there with
        | file bytes => exact found
        | directory => exact ih found _
      | none =>
        refine ih ?_ _
        rw [get?_put, if_neg, found]
        rintro rfl
        simp [next] at found

theorem Lies.makeDirectories (lies : Lies tree.get? place bytes) (path : String) :
    Lies (tree.makeDirectories [] path).1.get? place bytes :=
  lies.of_kept fun _ _ _ here => get?_makeBelow_of_some here _ _

theorem writeFile_eq_ok (wrote : tree.writeFile [] path content = .ok after) :
    tree.get? (placeOf path) ≠ some .directory ∧ after = tree.put (placeOf path) (.file content) := by
  rw [writeFile] at wrote
  split at wrote
  · rename_i place reached
    obtain rfl := placeOf_of_destination reached
    split_ifs at wrote with directory
    cases wrote
    exact ⟨by simpa [isDirectoryAt] using directory, rfl⟩
  · cases wrote

theorem moveFile_eq_ok (moved : tree.moveFile [] source target = .ok after) :
    ∃ node, tree.get? (placeOf source) = some node ∧ tree.get? (placeOf target) ≠ some .directory ∧
      after = (tree.remove (placeOf source)).put (placeOf target) node := by
  rw [FileTree.moveFile] at moved
  split at moved
  · rename_i old new resolved reached
    obtain rfl := placeOf_of_resolve resolved
    obtain rfl := placeOf_of_destination reached
    split_ifs at moved with directory
    split at moved
    · rename_i node found
      cases moved
      exact ⟨node, found, by simpa [isDirectoryAt] using directory, rfl⟩
    · cases moved
  · cases moved
  · cases moved

theorem Lies.moveFile (lies : Lies tree.get? place bytes) (file : tree.get? (placeOf source) ≠ some .directory)
    (notSource : place ≠ placeOf source) (notTarget : place ≠ placeOf target)
    (moved : tree.moveFile [] source target = .ok after) : Lies after.get? place bytes := by
  obtain ⟨node, -, free, rfl⟩ := moveFile_eq_ok moved
  refine (lies.remove (lies.outside file notSource)).put ?_ notTarget node
  rw [get?_remove]
  split
  · simp
  · exact free

theorem discardFile_cases (tree : FileTree) (path : String) : tree.discardFile [] path = tree ∨
    tree.get? (placeOf path) ≠ some .directory ∧ tree.discardFile [] path = tree.remove (placeOf path) := by
  rw [FileTree.discardFile]
  split
  · rename_i reached
    obtain rfl := placeOf_of_resolve reached
    split_ifs with directory
    · exact .inl rfl
    · exact .inr ⟨by simpa [isDirectoryAt] using directory, rfl⟩
  · exact .inl rfl

theorem Lies.discardFile (lies : Lies tree.get? place bytes) (apart : place ≠ placeOf path) :
    Lies (tree.discardFile [] path).get? place bytes := by
  obtain same | ⟨free, same⟩ := discardFile_cases tree path <;> rw [same]
  · exact lies
  · exact lies.remove (lies.outside free apart)

end FileTree

/-! ## What tasks leave alone -/

open FileTree (Lies placeOf)

variable {tree : FileTree} {place : Place} {bytes : List UInt8} {output : String} {p : Plan} {t : BuildTask}
  {tasks : List BuildTask}

/-- Whether or not a file can be written, it touches no other. -/
theorem lies_writeOutput {target : String} (lies : Lies tree.get? place bytes) (notTarget : place ≠ placeOf target)
    (notTemporary : place ≠ placeOf (temporaryPath target)) (content : List UInt8) :
    Lies ((writeOutput target content).perform tree).2.get? place bytes := by
  have made := lies.makeDirectories (FilePath.directory target)
  rw [Output.writeOutput_eq]
  dsimp only
  cases wrote : (tree.makeDirectories [] (FilePath.directory target)).1.writeFile [] (temporaryPath target) content with
  | error fault => exact made.discardFile notTemporary
  | ok between =>
    obtain ⟨free, rfl⟩ := FileTree.writeFile_eq_ok wrote
    have written := made.put free notTemporary (.file content)
    dsimp only
    cases moved : FileTree.moveFile _ [] (temporaryPath target) target with
    | error fault => exact written.discardFile notTemporary
    | ok after => exact written.moveFile (by simp [FileTree.get?_put]) notTemporary notTarget moved

/-- The task writes at this place, for good or at first. -/
def BuildTask.Touches (output : String) (t : BuildTask) (place : Place) : Prop :=
  place = placeOf (t.target output) ∨ place = placeOf (temporaryPath (t.target output))

theorem BuildTask.Placed.placeOf_target (placed : t.Placed output) : placeOf (t.target output) = namesOf (t.target output) :=
  FileTree.placeOf_of_straight fun up => (placed.direct.plain_of_mem up).notUp rfl

theorem BuildTask.Placed.placeOf_temporary (placed : t.Placed output) :
    placeOf (temporaryPath (t.target output)) = namesOf (temporaryPath (t.target output)) := by
  have meant := placed.at []
  refine FileTree.placeOf_of_straight ?_
  rw [meant.namesOf_temporaryPath, Output.temporary, List.mem_append, List.mem_singleton, not_or]
  exact ⟨meant.straight.1, meant.plain_hiddenName.notUp.symm⟩

theorem lies_run (lies : Lies tree.get? place bytes) (spared : ¬ t.Touches p.output place) (r : Reducer) :
    Lies ((t.run p r).perform tree).2.get? place bytes := by
  obtain ⟨notTarget, notTemporary⟩ := not_or.1 spared
  rw [perform_run]
  -- Making the bytes changes nothing; only they are what can be missing.
  cases t.productOf p r (tree.readFile [] t.source.physical) with
  | error failure => exact lies
  | ok content =>
    dsimp only
    split
    · exact lies
    · exact lies_writeOutput lies notTarget notTemporary content

theorem lies_foldl_next {before : TaskProgress} (lies : Lies before.tree.get? place bytes)
    (spared : ∀ t ∈ tasks, ¬ t.Touches p.output place) :
    Lies (tasks.foldl (TaskProgress.next p) before).tree.get? place bytes := by
  induction tasks generalizing before with
  | nil => exact lies
  | cons t tasks ih =>
    obtain ⟨first, later⟩ := List.forall_mem_cons.1 spared
    exact ih (lies_run lies first _) later

/-- A file at which no task writes is there after all tasks, whatever came of them. -/
theorem lies_runTasks (lies : Lies tree.get? place bytes) (spared : ∀ t ∈ tasks, ¬ t.Touches p.output place) :
    Lies (runTasks p tree tasks).tree.get? place bytes :=
  lies_foldl_next lies spared

end Folio
