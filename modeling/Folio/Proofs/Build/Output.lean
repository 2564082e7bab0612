import Folio.Build.Task
import Folio.Proofs.FilePath
import Folio.Proofs.FileTree
import Folio.Proofs.FileWork

/-!
# Writing a file of the site

A file is written under another name and then moved to its place.  What lies at each place
before says whether this succeeds and what lies there afterwards.  Two files that are not
in each other's way can be written in either order.

Main statement: `Output.swap`.
-/

namespace Folio

open FileTree (Open maxNameLength)

/-- A file to be written. -/
structure Output where
  directory : Place
  name : String
  bytes : List UInt8

namespace Output

def hiddenName (name : String) : String :=
  "." ++ name ++ ".tmp"

def target (o : Output) : Place :=
  o.directory ++ [o.name]

def temporary (o : Output) : Place :=
  o.directory ++ [hiddenName o.name]

variable {view : Place → Option FileNode} {o p : Output} {place : Place}

/-! ## Before and after -/

/-- Nothing keeps the file from being written. -/
structure Ready (view : Place → Option FileNode) (o : Output) : Prop where
  root : view [] = some .directory
  free : ∀ above, above <+: o.directory → view above = none ∨ view above = some .directory
  short : ∀ name ∈ o.directory, name.utf8ByteSize ≤ maxNameLength
  shortName : o.name.utf8ByteSize ≤ maxNameLength
  shortHidden : (hiddenName o.name).utf8ByteSize ≤ maxNameLength
  target : view o.target ≠ some .directory
  temporary : view o.temporary ≠ some .directory

/-- What lies at the places when the file has been written. -/
def after (view : Place → Option FileNode) (o : Output) (place : Place) : Option FileNode :=
  if place = o.target then some (.file o.bytes)
  else if o.temporary <+: place then none
  else if place <+: o.directory then some .directory
  else view place

theorem hiddenName_ne (name : String) : hiddenName name ≠ name := by
  intro same
  have sizes := congrArg String.length same
  simp only [hiddenName, String.length_append] at sizes
  have dot : ".".length = 1 := rfl
  omega

theorem target_not_above (o : Output) : ¬ o.target <+: o.directory := fun leads => by
  have sizes := leads.length_le
  simp only [target, List.length_append, List.length_singleton] at sizes
  omega

theorem temporary_not_above (o : Output) : ¬ o.temporary <+: o.directory := fun leads => by
  have sizes := leads.length_le
  simp only [temporary, List.length_append, List.length_singleton] at sizes
  omega

theorem temporary_ne_target (o : Output) : o.temporary ≠ o.target := fun same => by
  simp only [temporary, target, List.append_cancel_left_eq, List.singleton_inj] at same
  exact hiddenName_ne o.name same

/-! ## Writing -/

variable {tree between written : FileTree} {path : String}

theorem writeOutput_eq (target : String) (bytes : List UInt8) (tree : FileTree) :
    (writeOutput target bytes).perform tree =
      let directed := (tree.makeDirectories [] (FilePath.directory target)).1
      match directed.writeFile [] (temporaryPath target) bytes with
      | .error fault =>
        (.error (.ofFault (.file (temporaryPath target) fault)), directed.discardFile [] (temporaryPath target))
      | .ok between =>
        match between.moveFile [] (temporaryPath target) target with
        | .error fault => (.error (.ofFault (.file target fault)), between.discardFile [] (temporaryPath target))
        | .ok written => (.ok (), written) := by
  rw [writeOutput, FileWork.perform_alter_bind, FileWork.perform_tryCatch, FileWork.perform_bind,
    FileWork.perform_attempt]
  dsimp only
  cases (tree.makeDirectories [] (FilePath.directory target)).1.writeFile [] (temporaryPath target) bytes with
  | error fault => rfl
  | ok between =>
    dsimp only
    rw [FileWork.perform_attempt]
    cases between.moveFile [] (temporaryPath target) target <;> rfl

theorem writeOutput_eq_ok_iff {bytes : List UInt8} : (writeOutput path bytes).perform tree = (.ok (), written) ↔
    ∃ between,
      (tree.makeDirectories [] (FilePath.directory path)).1.writeFile [] (temporaryPath path) bytes = .ok between ∧
      between.moveFile [] (temporaryPath path) path = .ok written := by
  rw [writeOutput_eq]
  dsimp only
  cases (tree.makeDirectories [] (FilePath.directory path)).1.writeFile [] (temporaryPath path) bytes with
  | error fault => simp
  | ok between =>
    dsimp only
    cases moved : between.moveFile [] (temporaryPath path) path <;> simp [moved]

/-- Writing to this path is writing this file. -/
structure At (o : Output) (path : String) : Prop where
  direct : FilePath.IsDirect path
  named : FilePath.namesOf path = o.target

theorem plain_hiddenName {name : String} (flat : '/' ∉ name.toList) : FilePath.Plain (hiddenName name) := by
  have spelled : (hiddenName name).toList = '.' :: (name.toList ++ ".tmp".toList) := by
    simp [hiddenName]
  refine ⟨fun empty => ?_, ?_, fun here => ?_, fun up => ?_⟩
  · simp [empty] at spelled
  · rw [spelled]
    simp [flat]
  · simp [here] at spelled
  · have sizes := congrArg List.length spelled
    simp [up] at sizes

/-- The name under which a file is written at first comes after the directory of its target. -/
theorem namesOf_temporaryPath (target : String) : FilePath.namesOf (temporaryPath target) =
    FilePath.namesOf (FilePath.directory target) ++ [hiddenName ((FilePath.fileName? target).getD "")] := by
  refine FilePath.namesOf_join (plain_hiddenName ?_) _
  cases called : FilePath.fileName? target with
  | none => exact List.not_mem_nil
  | some name => exact FilePath.flat_of_fileName? called

namespace At

variable (meant : o.At path)

include meant

theorem straight : ".." ∉ o.directory ∧ o.name ≠ ".." := by
  have up := meant.direct.notUp
  rw [← meant.direct.namesOf_eq, meant.named, Output.target] at up
  simpa [eq_comm] using up

theorem plain_hiddenName : FilePath.Plain (hiddenName o.name) :=
  Output.plain_hiddenName (meant.direct.plain_of_mem (by simp [meant.named, target])).flat

theorem temporaryPath_eq : temporaryPath path = FilePath.join (FilePath.directory path) (hiddenName o.name) := by
  rw [temporaryPath, meant.direct.fileName? meant.named]
  rfl

theorem namesOf_directory : FilePath.namesOf (FilePath.directory path) = o.directory :=
  meant.direct.namesOf_directory meant.named

theorem namesOf_temporaryPath : FilePath.namesOf (temporaryPath path) = o.temporary := by
  rw [meant.temporaryPath_eq, FilePath.namesOf_join meant.plain_hiddenName, meant.namesOf_directory, temporary]

theorem endsWith_temporaryPath : (temporaryPath path).endsWith "/" = false := by
  rw [meant.temporaryPath_eq]
  exact FilePath.endsWith_slash_join meant.plain_hiddenName _

theorem makeDirectories_eq (tree : FileTree) :
    (tree.makeDirectories [] (FilePath.directory path)).1 = (tree.makeBelow [] o.directory).1 := by
  rw [FileTree.makeDirectories, FileTree.startOf_top, meant.namesOf_directory]

end At

/-- What lies at the places while the file lies under its other name. -/
theorem get?_between (straight : ".." ∉ o.directory) (way : Open (tree.makeBelow [] o.directory).1.get? o.directory)
    (place : Place) :
    ((tree.makeBelow [] o.directory).1.put o.temporary (.file o.bytes)).get? place =
      if place = o.temporary then some (.file o.bytes)
      else if place <+: o.directory then some .directory
      else tree.get? place := by
  rw [FileTree.get?_put, FileTree.get?_of_open_makeBelow straight way]

theorem ready_of_writeOutput (meant : o.At path) (wrote : (writeOutput path o.bytes).perform tree = (.ok (), written)) :
    Ready tree.get? o ∧ written.get? = after tree.get? o := by
  obtain ⟨straight, notUp⟩ := meant.straight
  obtain ⟨between, wrote, moved⟩ := writeOutput_eq_ok_iff.mp wrote
  rw [meant.makeDirectories_eq] at wrote
  obtain ⟨way, shortHidden, temporary, rfl⟩ :=
    (FileTree.writeFile_eq_ok_iff meant.namesOf_temporaryPath straight meant.plain_hiddenName.notUp).mp wrote
  obtain ⟨-, -, shortName, target, node, found, rfl⟩ :=
    (FileTree.moveFile_eq_ok_iff meant.namesOf_temporaryPath straight meant.plain_hiddenName.notUp
      meant.endsWith_temporaryPath meant.named notUp).mp moved
  -- What was there between the steps is told by what was there before.
  change FileTree.get? _ o.temporary ≠ _ at temporary
  change FileTree.get? (FileTree.put _ o.temporary _) o.target ≠ _ at target
  change FileTree.get? (FileTree.put _ o.temporary _) o.temporary = _ at found
  rw [FileTree.get?_of_open_makeBelow straight way, if_neg o.temporary_not_above] at temporary
  rw [get?_between straight way, if_neg o.temporary_ne_target.symm, if_neg o.target_not_above] at target
  rw [get?_between straight way, if_pos rfl] at found
  cases found
  obtain ⟨root, free, short⟩ := (FileTree.open_makeBelow_iff straight).mp way
  refine ⟨⟨root, free, short, shortName, shortHidden, target, temporary⟩, funext fun place => ?_⟩
  change (FileTree.put (FileTree.remove (FileTree.put _ o.temporary _) o.temporary) o.target _).get? place = _
  rw [FileTree.get?_put, FileTree.get?_remove, get?_between straight way, after]
  split
  · rfl
  · split
    · rfl
    · rename_i away
      rw [if_neg fun here : place = o.temporary => away (here ▸ List.prefix_rfl)]

def writtenTo (o : Output) (tree : FileTree) : FileTree :=
  (((tree.makeBelow [] o.directory).1.put o.temporary (.file o.bytes)).remove o.temporary).put o.target (.file o.bytes)

theorem perform_writeOutput (meant : o.At path) (ready : Ready tree.get? o) :
    (writeOutput path o.bytes).perform tree = (.ok (), o.writtenTo tree) := by
  obtain ⟨straight, notUp⟩ := meant.straight
  have way : Open (tree.makeBelow [] o.directory).1.get? o.directory :=
    (FileTree.open_makeBelow_iff straight).mpr ⟨ready.root, ready.free, ready.short⟩
  let between := (tree.makeBelow [] o.directory).1.put o.temporary (.file o.bytes)
  refine writeOutput_eq_ok_iff.mpr ⟨between, ?_, ?_⟩
  · rw [meant.makeDirectories_eq]
    refine (FileTree.writeFile_eq_ok_iff meant.namesOf_temporaryPath straight meant.plain_hiddenName.notUp).mpr
      ⟨way, ready.shortHidden, ?_, rfl⟩
    change FileTree.get? _ o.temporary ≠ _
    rw [FileTree.get?_of_open_makeBelow straight way, if_neg o.temporary_not_above]
    exact ready.temporary
  · refine (FileTree.moveFile_eq_ok_iff meant.namesOf_temporaryPath straight meant.plain_hiddenName.notUp
      meant.endsWith_temporaryPath meant.named notUp).mpr
      ⟨?_, ready.shortHidden, ready.shortName, ?_, _, ?_, rfl⟩
    · refine ⟨fun above leads => ?_, way.short, straight⟩
      rw [get?_between straight way, if_pos leads,
        if_neg fun here : above = o.temporary => o.temporary_not_above (here ▸ leads)]
    · change between.get? o.target ≠ _
      rw [get?_between straight way, if_neg o.temporary_ne_target.symm, if_neg o.target_not_above]
      exact ready.target
    · change between.get? o.temporary = _
      rw [get?_between straight way, if_pos rfl]

theorem exists_writeOutput (meant : o.At path) (ready : Ready tree.get? o) :
    ∃ written, (writeOutput path o.bytes).perform tree = (.ok (), written) :=
  ⟨_, perform_writeOutput meant ready⟩

/-- A file that lies elsewhere still lies there afterwards. -/
theorem Ready.lies {bytes : List UInt8} (ready : Ready view o) (lies : FileTree.Lies view place bytes)
    (notTarget : place ≠ o.target) (notTemporary : place ≠ o.temporary) : FileTree.Lies (after view o) place bytes := by
  obtain ⟨⟨names, name, rfl, way, notUp, fits⟩, here⟩ := lies
  have notAbove : ¬ o.temporary <+: names := fun leads => ready.temporary (way.directories _ leads)
  have notBelow : ¬ o.temporary <+: names ++ [name] := fun leads => by
    obtain same | leads := List.prefix_concat_iff.mp leads
    · exact notTemporary same.symm
    · exact notAbove leads
  refine ⟨⟨names, name, rfl, ⟨fun above leads => ?_, way.short, way.straight⟩, notUp, fits⟩, ?_⟩
  · have directory := way.directories above leads
    rw [after, if_neg fun same : above = o.target => ready.target (same ▸ directory),
      if_neg fun below => notAbove (below.trans leads), directory]
    simp
  · rw [after, if_neg notTarget, if_neg notBelow, if_neg, here]
    intro leads
    simpa [here] using ready.free _ leads

/-! ## Two files -/

/-- Neither of two files is in the way of the other. -/
structure Apart (o p : Output) : Prop where
  targets : o.target ≠ p.target
  left : ¬ o.temporary <+: p.target
  right : ¬ p.temporary <+: o.target

theorem Apart.symm (apart : Apart o p) : Apart p o :=
  ⟨apart.targets.symm, apart.right, apart.left⟩

theorem above_target (o : Output) : o.directory <+: o.target :=
  List.prefix_append ..

theorem hiddenName_inj {name other : String} : hiddenName name = hiddenName other ↔ name = other := by
  rw [← String.toList_inj, ← String.toList_inj]
  simp [hiddenName]

theorem temporary_inj : o.temporary = p.temporary ↔ o.target = p.target := by
  constructor
  · intro same
    obtain ⟨directories, names⟩ := List.append_inj' same rfl
    rw [target, target, directories, hiddenName_inj.mp (List.singleton_inj.mp names)]
  · intro same
    obtain ⟨directories, names⟩ := List.append_inj' same rfl
    rw [temporary, temporary, directories, List.singleton_inj.mp names]

theorem Apart.temporaries (apart : Apart o p) : ¬ o.temporary <+: p.temporary := fun leads => by
  obtain same | leads := List.prefix_concat_iff.mp leads
  · exact apart.targets (temporary_inj.mp same)
  · exact apart.left (leads.trans p.above_target)

theorem after_of_away (notTarget : place ≠ o.target) (notTemporary : ¬ o.temporary <+: place) :
    after view o place = if place <+: o.directory then some .directory else view place := by
  rw [after, if_neg notTarget, if_neg notTemporary]

theorem Ready.target_aside (second : Ready (after view o) p) : ¬ o.target <+: p.directory := fun leads => by
  simpa [after] using second.free o.target leads

section Swap

variable (apart : Apart o p)

include apart

theorem Apart.aside (leads : place <+: p.directory) : ¬ o.temporary <+: place := fun below =>
  apart.left ((below.trans leads).trans p.above_target)

theorem Ready.target_aside' (second : Ready (after view o) p) : ¬ p.target <+: o.directory := fun leads => by
  refine second.target ?_
  rw [after_of_away apart.targets.symm apart.left, if_pos leads]

theorem Ready.before (first : Ready view o) (second : Ready (after view o) p) : Ready view p := by
  have notBelow := second.target_aside
  refine ⟨first.root, fun above leads => ?_, second.short, second.shortName, second.shortHidden, ?_, ?_⟩
  · have free := second.free above leads
    rw [after_of_away (fun here => notBelow (here ▸ leads)) (apart.aside leads)] at free
    split at free
    · exact first.free above (by assumption)
    · exact free
  · have free := second.target
    rwa [after_of_away apart.targets.symm apart.left, if_neg (second.target_aside' apart)] at free
  · have free := second.temporary
    rw [after_of_away (fun here => apart.right (here ▸ List.prefix_rfl)) apart.temporaries] at free
    split at free
    · contradiction
    · exact free

theorem Ready.later (first : Ready view o) (second : Ready (after view o) p) : Ready (after view p) o := by
  refine ⟨?_, fun above leads => ?_, first.short, first.shortName, first.shortHidden, ?_, ?_⟩
  · rw [after_of_away (by simp [Output.target]) (by simp [Output.temporary]), if_pos List.nil_prefix]
  · rw [after_of_away (fun here => second.target_aside' apart (here ▸ leads)) (apart.symm.aside leads)]
    split
    · exact .inr rfl
    · exact first.free above leads
  · rw [after_of_away apart.targets apart.right, if_neg second.target_aside]
    exact first.target
  · rw [after]
    split
    · simp
    · split
      · simp
      · rw [if_neg fun leads => apart.left (leads.trans p.above_target)]
        exact first.temporary

theorem after_comm (notBelow : ¬ o.target <+: p.directory) (notAbove : ¬ p.target <+: o.directory) :
    after (after view o) p = after (after view p) o := by
  funext place
  -- At each place at most one of the two makes a change, or both make the same.
  by_cases inSecond : place = p.target
  · rw [inSecond, after_of_away apart.targets.symm apart.left, if_neg notAbove]
    simp [after]
  by_cases belowSecond : p.temporary <+: place
  · have away : place ≠ o.target := fun here => apart.right (here ▸ belowSecond)
    by_cases belowFirst : o.temporary <+: place
    · simp [after, inSecond, belowSecond, away, belowFirst]
    · rw [after_of_away away belowFirst, if_neg fun leads => apart.symm.aside leads belowSecond]
      simp [after, inSecond, belowSecond]
  rw [after_of_away inSecond belowSecond]
  by_cases inFirst : place = o.target
  · rw [inFirst, if_neg notBelow]
    simp [after]
  by_cases belowFirst : o.temporary <+: place
  · rw [if_neg fun leads => apart.aside leads belowFirst]
    simp [after, inFirst, belowFirst]
  rw [after_of_away inFirst belowFirst, after_of_away inFirst belowFirst, after_of_away inSecond belowSecond]
  split <;> split <;> rfl

/-- Two files that are not in each other's way can be written in either order. -/
theorem swap (first : Ready view o) (second : Ready (after view o) p) :
    Ready view p ∧ Ready (after view p) o ∧ after (after view o) p = after (after view p) o :=
  ⟨first.before apart second, first.later apart second,
    after_comm apart second.target_aside (second.target_aside' apart)⟩

end Swap

end Output

end Folio
