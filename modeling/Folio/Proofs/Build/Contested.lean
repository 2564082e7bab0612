import Folio.Proofs.Build.Frame
import Folio.Proofs.Build.Finished
import Folio.Proofs.Build.Targets

/-!
# What does not depend on the schedule

Under whatever schedule tasks are done, what they leave at a place depends only on the tree before, unless
the place is contested: one task writes there and another writes over what that one needs, or wants a
directory there.  So tasks that keep out of each other's way leave the same files under every schedule
under which they all succeed.

Main statements: `get?_eq_or_contested`, `not_contested_of_clear`.
-/

namespace Folio

open FilePath (namesOf)
open FileTree (placeOf walk)

variable {tree after : FileTree} {place other : Place} {names : List String} {path : String} {output : String}
  {p : Plan} {t : BuildTask} {tasks : List BuildTask} {events events' : List BuildEvent}

/-! ## Directories on the way -/

namespace FileTree

/-- Making directories changes only places on the way, and only where nothing is. -/
theorem get?_makeBelow_cases (tree : FileTree) (place other : Place) (names : List String) :
    (tree.makeBelow place names).1.get? other = tree.get? other ∨
      tree.get? other = none ∧ (tree.makeBelow place names).1.get? other = some .directory ∧
        ∃ front, front <+: names ∧ other = walk place front := by
  induction names generalizing tree place with
  | nil => exact .inl rfl
  | cons name names ih =>
    rw [makeBelow]
    split
    · rename_i up
      obtain same | ⟨before, made, front, leads, here⟩ := ih tree place.dropLast
      · exact .inl same
      · refine .inr ⟨before, made, name :: front, List.cons_prefix_cons.2 ⟨rfl, leads⟩, ?_⟩
        rw [here, walk, walk, List.foldl_cons, if_pos up]
    rename_i notUp
    have onward : (∃ front, front <+: names ∧ other = walk (place ++ [name]) front) →
        ∃ front, front <+: name :: names ∧ other = walk place front := by
      rintro ⟨front, leads, here⟩
      exact ⟨name :: front, List.cons_prefix_cons.2 ⟨rfl, leads⟩, by rw [here, walk, walk, List.foldl_cons, if_neg notUp]⟩
    split
    · exact .inl rfl
    · cases next : tree.get? (place ++ [name]) with
      | some there =>
        cases there with
        | file bytes => exact .inl rfl
        | directory => exact (ih tree _).imp_right fun made => ⟨made.1, made.2.1, onward made.2.2⟩
      | none =>
        by_cases here : other = place ++ [name]
        · refine .inr ⟨here ▸ next, get?_makeBelow_of_some ?_ _ _, onward ⟨[], List.nil_prefix, here⟩⟩
          rw [get?_put, if_pos here]
        · have rest := ih (tree.put (place ++ [name]) .directory) (place ++ [name])
          rw [get?_put, if_neg here] at rest
          exact rest.imp_right fun made => ⟨made.1, made.2.1, onward made.2.2⟩

/-- Names that lead to a directory lead through directories only. -/
theorem directory_of_follow (reached : tree.follow place names = .ok other) (ends : tree.get? other = some .directory)
    {front : List String} (leads : front <+: names) : tree.get? (walk place front) = some .directory := by
  induction names generalizing place front with
  | nil =>
    cases reached
    rw [List.prefix_nil.1 leads]
    exact ends
  | cons name names ih =>
    rw [follow] at reached
    split at reached
    · rename_i here
      cases front with
      | nil => exact here
      | cons first front =>
        obtain ⟨rfl, below⟩ := List.cons_prefix_cons.1 leads
        rw [walk, List.foldl_cons]
        split_ifs at reached ⊢ with up long
        · exact ih reached below
        · split at reached
          · exact ih reached below
          · cases reached
    · cases reached
    · cases reached

theorem short_of_follow (reached : tree.follow place names = .ok other) :
    ∀ name ∈ names, name.utf8ByteSize ≤ maxNameLength := by
  induction names generalizing place with
  | nil => exact List.forall_mem_nil _
  | cons name names ih =>
    rw [follow] at reached
    split at reached
    · split_ifs at reached with up long
      · exact List.forall_mem_cons.2 ⟨up ▸ by decide, ih reached⟩
      · split at reached
        · exact List.forall_mem_cons.2 ⟨not_lt.1 long, ih reached⟩
        · cases reached
    · cases reached
    · cases reached

/-- Where a file can be written, its path leads to a directory. -/
theorem follow_of_writeFile {bytes : List UInt8} {name : String}
    (wrote : tree.writeFile [] path bytes = .ok after) (named : namesOf path = names ++ [name]) :
    ∃ above, tree.follow [] names = .ok above ∧ tree.get? above = some .directory := by
  rw [writeFile] at wrote
  split at wrote
  · rename_i reached
    rw [destination, named, List.reverse_append, List.reverse_singleton, List.singleton_append] at reached
    simp only [List.reverse_reverse, startOf_top] at reached
    split at reached
    · rename_i above followed
      split_ifs at reached with noDirectory
      exact ⟨above, followed, by simpa [isDirectoryAt] using noDirectory⟩
    · cases reached
  · cases wrote

theorem readFile_eq_ok {bytes : List UInt8} (read : tree.readFile [] path = .ok bytes) :
    tree.get? (placeOf path) = some (.file bytes) := by
  rw [readFile] at read
  split at read
  · rename_i reached
    obtain rfl := placeOf_of_resolve reached
    split at read
    · rename_i here
      cases read
      exact here
    · cases read
    · cases read
  · cases read

end FileTree

/-! ## Places of tasks -/

namespace BuildTask

/-- The task writes at the place, or takes away what is there. -/
def Overwrites (output : String) (t : BuildTask) (place : Place) : Prop :=
  place = placeOf (t.target output) ∨ placeOf (temporaryPath (t.target output)) <+: place

/-- The task makes a directory at the place if there is none. -/
def Passes (output : String) (t : BuildTask) (place : Place) : Prop :=
  ∃ front, front <+: namesOf (FilePath.directory (t.target output)) ∧ place = walk [] front

/-- The task writes over the file of the other, or over its source. -/
def Disturbs (output : String) (t u : BuildTask) : Prop :=
  t.Overwrites output (placeOf (u.target output)) ∨ t.Overwrites output (placeOf (temporaryPath (u.target output))) ∨
    t.Overwrites output (placeOf u.source.physical)

end BuildTask

/-- What comes to lie at the place depends on who comes first: it is the file of a task that another one
disturbs, or one task wants a directory there and a task writes over it. -/
def Contested (output : String) (task : BuildTask → Prop) (place : Place) : Prop :=
  (∃ t, task t ∧ place = placeOf (t.target output) ∧ ∃ u, task u ∧ u ≠ t ∧ u.Disturbs output t) ∨
    ∃ t, task t ∧ t.Passes output place ∧ ∃ u, task u ∧ u.Overwrites output place

/-! ## One place under all schedules -/

namespace Workshop

variable {w w' : Workshop} {number : ℕ} {stage : TaskStage}

/-- A task that goes on changes nothing where it does not write. -/
theorem Advances.get?_eq (advances : Advances p w number t stage w') (aside : ¬ t.Overwrites p.output place) :
    w'.tree.get? place = w.tree.get? place := by
  obtain ⟨notTarget, outside⟩ := not_or.1 aside
  cases advances with
  | writes wrote =>
    obtain ⟨-, rfl⟩ := FileTree.writeFile_eq_ok wrote
    exact (FileTree.get?_put ..).trans (if_neg fun here : place = _ => outside (here ▸ List.prefix_rfl))
  | moves goesOn done =>
    obtain ⟨node, -, -, rfl⟩ := FileTree.moveFile_eq_ok done
    exact ((FileTree.get?_put ..).trans (if_neg notTarget)).trans ((FileTree.get?_remove ..).trans (if_neg outside))
  | discards =>
    obtain same | ⟨-, same⟩ := FileTree.discardFile_cases w.tree (temporaryPath (t.target p.output))
    · exact congrFun (congrArg FileTree.get? same) place
    · exact (congrFun (congrArg FileTree.get? same) place).trans ((FileTree.get?_remove ..).trans (if_neg outside))
  | _ => rfl

/-- Directories are made for the files of tasks only. -/
theorem exists_task_of_attempt (reached : Reached p tree tasks w) {k : ℕ} {a : Attempt}
    (begun : w.directories.attempts[k]? = some a) : ∃ t ∈ tasks, a.path = FilePath.directory (t.target p.output) := by
  obtain ⟨events, rfl⟩ := reached
  have directed := directed_run p tree tasks events
  obtain ⟨owner, sound⟩ := directed.sound
  obtain ⟨c, call, path, -⟩ := sound.owned k a begun
  exact path ▸ directed.called _ c call

/-- Where something is, making directories changes nothing. -/
theorem get?_create_cases (reached : Reached p tree tasks w) (attempt : ℕ) (place : Place) :
    (w.create attempt).tree.get? place = w.tree.get? place ∨
      w.tree.get? place = none ∧ (w.create attempt).tree.get? place = some .directory ∧
        ∃ t ∈ tasks, t.Passes p.output place := by
  obtain same | ⟨a, begun, directories, same, -⟩ := create_cases w attempt
  · exact .inl (by rw [same])
  · obtain ⟨t, mem, path⟩ := exists_task_of_attempt reached begun
    have made := FileTree.get?_makeBelow_cases w.tree [] place (namesOf a.path)
    rw [same, FileTree.makeDirectories, FileTree.startOf_top]
    obtain same | ⟨before, now, front, leads, here⟩ := made
    · exact .inl same
    · exact .inr ⟨before, now, t, mem, front, path ▸ leads, here⟩

theorem get?_create_of_some {node : FileNode} (there : w.tree.get? place = some node) (attempt : ℕ) :
    (w.create attempt).tree.get? place = some node := by
  obtain same | ⟨a, -, directories, same, -⟩ := create_cases w attempt <;> rw [same]
  · exact there
  · exact FileTree.get?_makeBelow_of_some there _ _

@[simp] theorem stages_create (w : Workshop) (attempt : ℕ) : (w.create attempt).stages = w.stages := by
  obtain same | ⟨a, -, directories, same, -⟩ := create_cases w attempt <;> rw [same]

/-- Where no task writes, everything is as it was, except that there may be a directory where nothing was. -/
theorem get?_of_reached (reached : Reached p tree tasks w) (aside : ∀ t ∈ tasks, ¬ t.Overwrites p.output place) :
    w.tree.get? place = tree.get? place ∨
      tree.get? place = none ∧ w.tree.get? place = some .directory ∧ ∃ t ∈ tasks, t.Passes p.output place := by
  obtain ⟨events, rfl⟩ := reached
  refine run_induction (motive := fun w => w.tree.get? place = tree.get? place ∨
      tree.get? place = none ∧ w.tree.get? place = some .directory ∧ ∃ t ∈ tasks, t.Passes p.output place)
    (.inl rfl) ?_ ?_ ?_ ?_ events
  · intro w number t stage w' _ before task _ advances
    rwa [advances.get?_eq (aside t (List.mem_of_getElem? task))]
  · rintro w attempt reached (same | ⟨none, there, passed⟩)
    · rw [← same]
      exact get?_create_cases reached attempt place
    · exact .inr ⟨none, get?_create_of_some there attempt, passed⟩
  · intro w number result _ before _
    rwa [tree_join]
  · exact fun w _ before => before

theorem isCanceled_step (reached : Reached p tree tasks w) (e : DirectoryEvent) (canceled : w.isCanceled = true) :
    Workshop.isCanceled { w with directories := w.directories.step e } = true := by
  obtain ⟨events, rfl⟩ := reached
  obtain ⟨owner, sound⟩ := (directed_run p tree tasks events).sound
  exact (sound.later_step e).canceled _ canceled

theorem goesOn_of_step (reached : Reached p tree tasks w) {e : DirectoryEvent}
    (goesOn : Workshop.isCanceled { w with directories := w.directories.step e } = false) : w.isCanceled = false := by
  by_contra canceled
  rw [isCanceled_step reached e (by simpa using canceled)] at goesOn
  cases goesOn

theorem goesOn_of_create (reached : Reached p tree tasks w) {attempt : ℕ}
    (goesOn : (w.create attempt).isCanceled = false) : w.isCanceled = false := by
  obtain same | ⟨a, -, directories, same, ⟨-, rfl⟩ | rfl⟩ := create_cases w attempt <;> rw [same] at goesOn
  · exact goesOn
  · exact goesOn_of_step reached goesOn
  · exact goesOn

theorem Succeeds.goesOn (reached : Reached p tree tasks w) (succeeds : Succeeds p w number t stage w')
    (goesOn : w'.isCanceled = false) : w.isCanceled = false := by
  cases succeeds with
  | asks => exact goesOn_of_step reached goesOn
  | finds => exact goesOn_of_step reached goesOn
  | _ => exact goesOn

/-- Only the task that goes on comes to another stage. -/
theorem Succeeds.stage_eq (succeeds : Succeeds p w number t stage w') {n : ℕ} (other : n ≠ number) :
    w'.stages[n]? = w.stages[n]? := by
  cases succeeds <;> exact List.getElem?_set_ne other.symm

end Workshop

/-! ## What a task leaves -/

/-- From the files in the tree, the task makes these bytes. -/
def BuildTask.Makes (p : Plan) (tree : FileTree) (t : BuildTask) (bytes : List UInt8) : Prop :=
  ∃ source, tree.get? (placeOf t.source.physical) = some (.file source) ∧
    t.make p (Reducer.ofTools Builtin.toolbox false) source = .ok bytes

theorem BuildTask.Makes.unique {bytes others : List UInt8} (makes : t.Makes p tree bytes) (makes' : t.Makes p tree others) :
    bytes = others := by
  obtain ⟨source, here, made⟩ := makes
  obtain ⟨source', here', made'⟩ := makes'
  obtain rfl := FileNode.file.inj (Option.some_inj.1 (here.symm.trans here'))
  exact Except.ok.inj (made.symm.trans made')

def TaskStage.hasWritten : TaskStage → Bool
  | .written | .ended (.ok _) | .joined (.ok _) => true
  | _ => false

namespace Workshop

variable {w w' : Workshop} {number : ℕ} {stage : TaskStage}

/-- How far a task has come that nobody disturbs: what it reads is its source as it was before, what it writes
is made of that unless the work has been canceled, and what it has written is where it should be. -/
def Standing (p : Plan) (tree : FileTree) (w : Workshop) (t : BuildTask) : TaskStage → Prop
  | .waiting => ∀ source, w.tree.get? (placeOf t.source.physical) = some (.file source) →
    tree.get? (placeOf t.source.physical) = some (.file source)
  | .opened source => tree.get? (placeOf t.source.physical) = some (.file source)
  | .made bytes | .asking _ bytes | .ready bytes => w.isCanceled = false → t.Makes p tree bytes
  | .written => w.isCanceled = false →
    ∃ bytes, t.Makes p tree bytes ∧ w.tree.get? (placeOf (temporaryPath (t.target p.output))) = some (.file bytes)
  | .ended (.ok _) | .joined (.ok _) =>
    ∃ bytes, t.Makes p tree bytes ∧ w.tree.get? (placeOf (t.target p.output)) = some (.file bytes)
  | _ => True

theorem Standing.mono (standing : Standing p tree w t stage) (goesOn : w'.isCanceled = false → w.isCanceled = false)
    (source : ∀ bytes, w'.tree.get? (placeOf t.source.physical) = some (.file bytes) →
      w.tree.get? (placeOf t.source.physical) = some (.file bytes))
    (kept : ∀ bytes place, place = placeOf (t.target p.output) ∨ place = placeOf (temporaryPath (t.target p.output)) →
      w.tree.get? place = some (.file bytes) → w'.tree.get? place = some (.file bytes)) : Standing p tree w' t stage := by
  have result : ∀ bytes, t.Makes p tree bytes → w.tree.get? (placeOf (t.target p.output)) = some (.file bytes) →
      ∃ bytes, t.Makes p tree bytes ∧ w'.tree.get? (placeOf (t.target p.output)) = some (.file bytes) :=
    fun bytes makes there => ⟨bytes, makes, kept bytes _ (.inl rfl) there⟩
  cases stage with
  | waiting => exact fun bytes here => standing bytes (source bytes here)
  | opened => exact standing
  | made => exact fun goes => standing (goesOn goes)
  | asking => exact fun goes => standing (goesOn goes)
  | ready => exact fun goes => standing (goesOn goes)
  | written =>
    intro goes
    obtain ⟨bytes, makes, there⟩ := standing (goesOn goes)
    exact ⟨bytes, makes, kept bytes _ (.inr rfl) there⟩
  | refused => trivial
  | ended outcome =>
    cases outcome with
    | ok => exact standing.elim fun bytes made => result bytes made.1 made.2
    | error => trivial
  | joined outcome =>
    cases outcome with
    | ok => exact standing.elim fun bytes made => result bytes made.1 made.2
    | error => trivial

/-- A task that goes on comes to where it should. -/
theorem Succeeds.standing (reached : Reached p tree tasks w) (succeeds : Succeeds p w number t stage w')
    (before : Standing p tree w t stage) {next : TaskStage} (now : w'.stages[number]? = some next) :
    Standing p tree w' t next := by
  have at_ : ∀ {stages : List TaskStage} {s : TaskStage}, (stages.set number s)[number]? = some next → next = s :=
    fun set => (stage_of_set set).elim And.right fun other => absurd rfl other.1
  cases succeeds with
  | @opens bytes read =>
    obtain rfl := at_ now
    exact before bytes (FileTree.readFile_eq_ok read)
  | makes made =>
    obtain rfl := at_ now
    intro goes
    rw [show w.isCanceled = false from goes] at made
    exact ⟨_, before, made⟩
  | asks =>
    obtain rfl := at_ now
    exact fun goes => before (goesOn_of_step reached goes)
  | finds =>
    obtain rfl := at_ now
    exact fun goes => before (goesOn_of_step reached goes)
  | writes wrote =>
    obtain rfl := at_ now
    obtain ⟨-, rfl⟩ := FileTree.writeFile_eq_ok wrote
    exact fun goes => ⟨_, before goes, (FileTree.get?_put ..).trans (if_pos rfl)⟩
  | moves goes done =>
    obtain rfl := at_ now
    obtain ⟨node, there, -, rfl⟩ := FileTree.moveFile_eq_ok done
    obtain ⟨bytes, makes, here⟩ := before goes
    obtain rfl := Option.some_inj.1 (there.symm.trans here)
    exact ⟨bytes, makes, (FileTree.get?_put ..).trans (if_pos rfl)⟩

/-- A task that nobody disturbs leaves what it makes of its source. -/
theorem standing_of_fine (nodup : tasks.Nodup) (task : tasks[number]? = some t)
    (undisturbed : ∀ u ∈ tasks, u ≠ t → ¬ u.Disturbs p.output t)
    (fine : ((start tree tasks).run p tasks events).Fine) :
    let w := (start tree tasks).run p tasks events
    ∀ stage, w.stages[number]? = some stage → Standing p tree w t stage := by
  refine fine_induction (motive := fun w => ∀ stage, w.stages[number]? = some stage → Standing p tree w t stage)
    ?_ ?_ ?_ ?_ ?_ events fine
  · intro stage now
    rw [stage_start now]
    exact fun _ => id
  · intro w n u s w' reached before task' found succeeds stage now
    by_cases same : n = number
    · subst same
      obtain rfl := Option.some_inj.1 (task.symm.trans task')
      exact succeeds.standing reached (before s found) now
    · -- Another task leaves alone what this one has made.
      have other : u ≠ t := by
        rintro rfl
        exact same ((List.getElem?_inj (Directories.getElem?_lt task') nodup).1 (task'.trans task.symm))
      obtain ⟨target, rest⟩ := not_or.1 (undisturbed u (List.mem_of_getElem? task') other)
      obtain ⟨temporary, source⟩ := not_or.1 rest
      rw [succeeds.stage_eq (Ne.symm same)] at now
      refine (before stage now).mono (succeeds.goesOn reached) (fun bytes here => ?_) ?_
      · rwa [← succeeds.advances.get?_eq source]
      · rintro bytes _ (rfl | rfl) there
        · rwa [succeeds.advances.get?_eq target]
        · rwa [succeeds.advances.get?_eq temporary]
  · intro w attempt reached before stage now
    rw [stages_create] at now
    refine (before stage now).mono (goesOn_of_create reached) (fun bytes here => ?_) fun _ _ _ there =>
      get?_create_of_some there attempt
    obtain same | ⟨-, directory, -⟩ := get?_create_cases reached attempt (placeOf t.source.physical)
    · exact same.symm.trans here
    · rw [here] at directory
      cases directory
  · intro w n _ before found stage now
    obtain ⟨rfl, rfl⟩ | ⟨-, now⟩ := stage_of_set now
    · exact before _ found
    · exact (before stage now).mono id (fun _ => id) fun _ _ _ => id
  · intro w e reached before stage now
    exact (before stage now).mono (goesOn_of_step reached) (fun _ => id) fun _ _ _ => id

/-- The directories that a task passes are there once it has written its file. -/
theorem directory_of_fine (aside : ∀ u ∈ tasks, ¬ u.Overwrites p.output place)
    (fine : ((start tree tasks).run p tasks events).Fine) :
    let w := (start tree tasks).run p tasks events
    ∀ (number : ℕ) (t : BuildTask) (stage : TaskStage), tasks[number]? = some t → w.stages[number]? = some stage →
      stage.hasWritten = true → t.Passes p.output place → w.tree.get? place = some .directory := by
  refine fine_induction (motive := fun w => ∀ (number : ℕ) (t : BuildTask) (stage : TaskStage),
      tasks[number]? = some t → w.stages[number]? = some stage → stage.hasWritten = true → t.Passes p.output place →
        w.tree.get? place = some .directory) ?_ ?_ ?_ ?_ ?_ events fine
  · intro number t stage _ found written _
    rw [stage_start found] at written
    cases written
  · intro w n u s w' _ before task found succeeds number t stage known now written passes
    rw [succeeds.advances.get?_eq (aside u (List.mem_of_getElem? task))]
    by_cases same : number = n
    · subst same
      obtain rfl := Option.some_inj.1 (task.symm.trans known)
      cases succeeds with
      | writes wrote =>
        obtain ⟨front, leads, rfl⟩ := passes
        obtain ⟨above, followed, directory⟩ := FileTree.follow_of_writeFile wrote (Output.namesOf_temporaryPath _)
        exact FileTree.directory_of_follow followed directory leads
      | moves => exact before number u .written task found rfl passes
      | _ =>
        obtain ⟨-, rfl⟩ | ⟨other, -⟩ := stage_of_set now
        · cases written
        · exact absurd rfl other
    · rw [succeeds.stage_eq same] at now
      exact before number t stage known now written passes
  · intro w attempt _ before number t stage known now written passes
    rw [stages_create] at now
    exact get?_create_of_some (before number t stage known now written passes) attempt
  · intro w n _ before found number t stage known now written passes
    obtain ⟨rfl, rfl⟩ | ⟨-, now⟩ := stage_of_set now
    · exact before number t _ known found rfl passes
    · exact before number t stage known now written passes
  · exact fun w e _ before => before

/-- Some task has its file at the place and has not moved it yet. -/
def HeldAt (p : Plan) (tasks : List BuildTask) (w : Workshop) (place : Place) : Prop :=
  ∃ (number : ℕ) (t : BuildTask), tasks[number]? = some t ∧ w.stages[number]? = some .written ∧
    place = placeOf (temporaryPath (t.target p.output))

/-- Some task whose first file leads to the place has moved it to its target. -/
def MovedFrom (p : Plan) (tasks : List BuildTask) (w : Workshop) (place : Place) : Prop :=
  ∃ (number : ℕ) (t : BuildTask) (stage : TaskStage), tasks[number]? = some t ∧ w.stages[number]? = some stage ∧
    stage.hasReported = true ∧ placeOf (temporaryPath (t.target p.output)) <+: place

theorem HeldAt.onward (held : HeldAt p tasks w place) (task : tasks[number]? = some t)
    (found : w.stages[number]? = some stage) (succeeds : Succeeds p w number t stage w')
    (away : stage ≠ .written ∨ place ≠ placeOf (temporaryPath (t.target p.output))) : HeldAt p tasks w' place := by
  obtain ⟨n, u, known, written, here⟩ := held
  refine ⟨n, u, known, (succeeds.stage_eq ?_).trans written, here⟩
  rintro rfl
  obtain rfl := Option.some_inj.1 (task.symm.trans known)
  obtain rfl := Option.some_inj.1 (found.symm.trans written)
  exact away.elim (fun other => other rfl) fun other => other here

theorem MovedFrom.before (moved : MovedFrom p tasks w' place) (task : tasks[number]? = some t)
    (succeeds : Succeeds p w number t stage w')
    (silent : ∀ next, w'.stages[number]? = some next → next.hasReported = true →
      ¬ placeOf (temporaryPath (t.target p.output)) <+: place) : MovedFrom p tasks w place := by
  obtain ⟨n, u, next, known, now, reported, leads⟩ := moved
  by_cases same : n = number
  · subst same
    obtain rfl := Option.some_inj.1 (task.symm.trans known)
    exact absurd leads (silent next now reported)
  · exact ⟨n, u, next, known, (succeeds.stage_eq same).symm.trans now, reported, leads⟩

/-- A task that goes on leaves nothing at the place, unless it writes its file there at first. -/
theorem Succeeds.none_or_heldAt (succeeds : Succeeds p w number t stage w') (task : tasks[number]? = some t)
    (found : w.stages[number]? = some stage) (notTarget : place ≠ placeOf (t.target p.output))
    (before : MovedFrom p tasks w place → w.tree.get? place = none ∨ HeldAt p tasks w place)
    (moved : MovedFrom p tasks w' place) : w'.tree.get? place = none ∨ HeldAt p tasks w' place := by
  have onward (same : w'.tree.get? place = w.tree.get? place)
      (silent : ∀ next, w'.stages[number]? = some next → next.hasReported = true →
        ¬ placeOf (temporaryPath (t.target p.output)) <+: place)
      (away : stage ≠ .written ∨ place ≠ placeOf (temporaryPath (t.target p.output))) :
      w'.tree.get? place = none ∨ HeldAt p tasks w' place :=
    (before (moved.before task succeeds silent)).imp same.trans fun held => held.onward task found succeeds away
  have silent {s : TaskStage} (quiet : s.hasReported = false) (next : TaskStage)
      (now : (w.stages.set number s)[number]? = some next) (reported : next.hasReported = true) :
      ¬ placeOf (temporaryPath (t.target p.output)) <+: place := by
    rw [List.getElem?_set_self (Directories.getElem?_lt found)] at now
    rw [← Option.some_inj.1 now, quiet] at reported
    cases reported
  by_cases below : placeOf (temporaryPath (t.target p.output)) <+: place
  · cases succeeds with
    | writes wrote =>
      by_cases here : place = placeOf (temporaryPath (t.target p.output))
      · exact .inr ⟨number, t, task, List.getElem?_set_self (Directories.getElem?_lt found), here⟩
      · obtain ⟨-, rfl⟩ := FileTree.writeFile_eq_ok wrote
        exact onward ((FileTree.get?_put ..).trans (if_neg here)) (silent rfl) (.inl nofun)
    | moves goesOn done =>
      obtain ⟨node, -, -, rfl⟩ := FileTree.moveFile_eq_ok done
      exact .inl (((FileTree.get?_put ..).trans (if_neg notTarget)).trans ((FileTree.get?_remove ..).trans (if_pos below)))
    | _ => exact onward rfl (silent rfl) (.inl nofun)
  · exact onward (succeeds.advances.get?_eq (not_or.2 ⟨notTarget, below⟩)) (fun _ _ _ => below)
      (.inr fun here => below (here ▸ List.prefix_rfl))

/-- Where a task has written at first nothing stays, if no task has its target there or needs a directory. -/
theorem none_or_heldAt_of_fine (free : ∀ u ∈ tasks, place ≠ placeOf (u.target p.output) ∧ ¬ u.Passes p.output place)
    (fine : ((start tree tasks).run p tasks events).Fine) :
    let w := (start tree tasks).run p tasks events
    MovedFrom p tasks w place → w.tree.get? place = none ∨ HeldAt p tasks w place := by
  refine fine_induction
    (motive := fun w => MovedFrom p tasks w place → w.tree.get? place = none ∨ HeldAt p tasks w place)
    ?_ ?_ ?_ ?_ ?_ events fine
  · rintro ⟨number, t, stage, -, found, reported, -⟩
    rw [stage_start found] at reported
    cases reported
  · intro w number t stage w' _ before task found succeeds
    exact succeeds.none_or_heldAt task found (free t (List.mem_of_getElem? task)).1 before
  · intro w attempt reached before moved
    simp only [MovedFrom, HeldAt, stages_create] at before moved ⊢
    obtain none | held := before moved
    · obtain same | ⟨-, -, u, mem, passes⟩ := get?_create_cases reached attempt place
      · exact .inl (same.trans none)
      · exact absurd passes (free u mem).2
    · exact .inr held
  · rintro w number - before found ⟨n, u, next, known, now, reported, leads⟩
    have earlier : w.tree.get? place = none ∨ HeldAt p tasks w place := by
      obtain ⟨rfl, -⟩ | ⟨-, now⟩ := stage_of_set now
      · exact before ⟨n, u, _, known, found, rfl, leads⟩
      · exact before ⟨n, u, next, known, now, reported, leads⟩
    refine earlier.imp_right fun ⟨m, v, known, written, here⟩ => ⟨m, v, known, ?_, here⟩
    refine (List.getElem?_set_ne ?_).trans written
    rintro rfl
    exact nomatch Option.some_inj.1 (found.symm.trans written)
  · exact fun w e _ before => before

end Workshop

/-! ## After all tasks -/

/-- What lies at a place after all tasks, as the tree before and the tasks alone tell. -/
inductive LeftAt (p : Plan) (tree : FileTree) (tasks : List BuildTask) (place : Place) : Option FileNode → Prop where
  | made {t : BuildTask} {bytes : List UInt8} (mem : t ∈ tasks) (here : place = placeOf (t.target p.output))
      (makes : t.Makes p tree bytes) : LeftAt p tree tasks place (some (.file bytes))
  | cleared {t : BuildTask} (mem : t ∈ tasks) (below : placeOf (temporaryPath (t.target p.output)) <+: place)
      (free : ∀ u ∈ tasks, place ≠ placeOf (u.target p.output)) : LeftAt p tree tasks place none
  | passed {t : BuildTask} (mem : t ∈ tasks) (passes : t.Passes p.output place)
      (aside : ∀ u ∈ tasks, ¬ u.Overwrites p.output place) : LeftAt p tree tasks place (some .directory)
  | spared (aside : ∀ u ∈ tasks, ¬ u.Overwrites p.output place ∧ ¬ u.Passes p.output place) :
      LeftAt p tree tasks place (tree.get? place)

theorem LeftAt.unique {node node' : Option FileNode} (uncontested : ¬ Contested p.output (· ∈ tasks) place)
    (left : LeftAt p tree tasks place node) (left' : LeftAt p tree tasks place node') : node = node' := by
  cases left with
  | @made t bytes mem here makes =>
    cases left' with
    | @made u others mem' here' makes' =>
      by_cases same : u = t
      · rw [makes.unique (same ▸ makes')]
      · exact absurd (.inl ⟨t, mem, here, u, mem', same, .inl (.inl (here ▸ here'))⟩) uncontested
    | cleared _ _ free => exact absurd here (free t mem)
    | passed _ _ aside => exact absurd (.inl here) (aside t mem)
    | spared aside => exact absurd (.inl here) (aside t mem).1
  | @cleared t mem below free =>
    cases left' with
    | @made u _ mem' here' => exact absurd here' (free u mem')
    | cleared => rfl
    | passed _ _ aside => exact absurd (.inr below) (aside t mem)
    | spared aside => exact absurd (.inr below) (aside t mem).1
  | @passed t mem passes aside =>
    cases left' with
    | @made u _ mem' here' => exact absurd (.inl here') (aside u mem')
    | @cleared u mem' below => exact absurd (.inr below) (aside u mem')
    | passed => rfl
    | spared aside' => exact absurd passes (aside' t mem).2
  | spared aside =>
    cases left' with
    | @made u _ mem' here' => exact absurd (.inl here') (aside u mem').1
    | @cleared u mem' below => exact absurd (.inr below) (aside u mem').1
    | @passed u mem' passes => exact absurd passes (aside u mem').2
    | spared => rfl

/-- If nobody fails, what lies at an uncontested place does not depend on the schedule. -/
theorem leftAt_of_done {done : TaskProgress} (nodup : tasks.Nodup) (ended : runTasksBy events p tree tasks = some done)
    (whole : done.tally.failure = none) (uncontested : ¬ Contested p.output (· ∈ tasks) place) :
    LeftAt p tree tasks place (done.tree.get? place) := by
  obtain ⟨finished, rfl⟩ := runTasksBy_eq_some_iff.1 ended
  have reached : Workshop.Reached p tree tasks ((Workshop.start tree tasks).run p tasks events) := ⟨events, rfl⟩
  have fine := Workshop.fine_of_finished reached finished whole
  have joined : ∀ {t}, t ∈ tasks → ∃ number : ℕ, tasks[number]? = some t ∧
      ((Workshop.start tree tasks).run p tasks events).stages[number]? = some (.joined (.ok ())) :=
    fun mem => Workshop.exists_joined reached finished whole mem
  dsimp only
  by_cases target : ∃ t ∈ tasks, place = placeOf (t.target p.output)
  · obtain ⟨t, mem, here⟩ := target
    obtain ⟨number, task, found⟩ := joined mem
    obtain ⟨bytes, makes, there⟩ := Workshop.standing_of_fine nodup task
      (fun u mem' other disturbs => uncontested (.inl ⟨t, mem, here, u, mem', other, disturbs⟩)) fine _ found
    rw [here, there]
    exact .made mem rfl makes
  have free : ∀ u ∈ tasks, place ≠ placeOf (u.target p.output) := fun u mem here => target ⟨u, mem, here⟩
  by_cases below : ∃ t ∈ tasks, placeOf (temporaryPath (t.target p.output)) <+: place
  · obtain ⟨t, mem, leads⟩ := below
    obtain ⟨number, task, found⟩ := joined mem
    have away : ∀ u ∈ tasks, place ≠ placeOf (u.target p.output) ∧ ¬ u.Passes p.output place := fun u mem' =>
      ⟨free u mem', fun passes => uncontested (.inr ⟨u, mem', passes, t, mem, .inr leads⟩)⟩
    obtain none | ⟨m, v, -, written, -⟩ := Workshop.none_or_heldAt_of_fine away fine ⟨number, t, _, task, found, rfl, leads⟩
    · rw [none]
      exact .cleared mem leads free
    · -- Every task has moved its file by now.
      exact nomatch Workshop.joined_of_finished reached finished whole _ (List.mem_of_getElem? written)
  have aside : ∀ u ∈ tasks, ¬ u.Overwrites p.output place := fun u mem overwrites =>
    overwrites.elim (free u mem) fun leads => below ⟨u, mem, leads⟩
  by_cases passed : ∃ t ∈ tasks, t.Passes p.output place
  · obtain ⟨t, mem, passes⟩ := passed
    obtain ⟨number, task, found⟩ := joined mem
    rw [Workshop.directory_of_fine aside fine number t _ task found rfl passes]
    exact .passed mem passes aside
  · obtain same | ⟨-, -, passes⟩ := Workshop.get?_of_reached reached aside
    · rw [same]
      exact .spared fun u mem => ⟨aside u mem, fun passes => passed ⟨u, mem, passes⟩⟩
    · exact absurd passes passed

/-- Tasks that succeed under two schedules leave the same under both, except at contested places. -/
theorem get?_eq_or_contested {done done' : TaskProgress} (nodup : tasks.Nodup)
    (ended : runTasksBy events p tree tasks = some done) (ended' : runTasksBy events' p tree tasks = some done')
    (whole : done.tally.failure = none) (whole' : done'.tally.failure = none) (place : Place) :
    done.tree.get? place = done'.tree.get? place ∨ Contested p.output (· ∈ tasks) place :=
  (Classical.em (Contested p.output (· ∈ tasks) place)).symm.imp_left fun uncontested =>
    (leftAt_of_done nodup ended whole uncontested).unique uncontested (leftAt_of_done nodup ended' whole' uncontested)

/-! ## Tasks that are clear of each other -/

section Clear

variable {u : BuildTask}

theorem BuildTask.Settled.placeOf_source (settled : t.Settled tree output) :
    placeOf t.source.physical = namesOf t.source.physical := by
  obtain ⟨root, names, rootDirect, plain, physical, -⟩ := settled.found.below
  exact FileTree.placeOf_of_straight (physical ▸ (rootDirect.foldl_join plain).notUp_namesOf)

theorem BuildTask.Clear.not_disturbs (clear : t.Clear output u) (clear' : u.Clear output t)
    (settled : t.Settled tree output) (settled' : u.Settled tree output) (direct : FilePath.IsDirect output) :
    ¬ t.Disturbs output u := by
  have placed := settled.placed direct
  have placed' := settled'.placed direct
  have apart : (t.outputOf output []).Apart (u.outputOf output []) :=
    (clear.spares settled settled' direct).apart placed placed' (clear'.spares settled' settled direct)
  rw [Disturbs, Overwrites, Overwrites, Overwrites, placed.placeOf_target, placed.placeOf_temporary, placed'.placeOf_target,
    placed'.placeOf_temporary, settled'.placeOf_source]
  rintro ((same | below) | (same | below) | (same | below))
  · exact clear.target (same ▸ List.prefix_rfl)
  · exact clear.temporary below
  · exact clear'.temporary (same ▸ List.prefix_rfl)
  · rw [(placed.at []).namesOf_temporaryPath, (placed'.at []).namesOf_temporaryPath] at below
    exact apart.temporaries below
  · exact (clear.spares settled settled' direct).source.1 same
  · exact settled'.found.outside ((settled.output_leads direct (clear.path_ne_nil settled settled')).trans below)

/-- Tasks that are clear of each other contest no place. -/
theorem not_contested_of_clear (settled : ∀ t ∈ tasks, t.Settled tree output) (direct : FilePath.IsDirect output)
    (clear : tasks.Pairwise fun t u => t.Clear output u ∧ u.Clear output t) : ¬ Contested output (· ∈ tasks) place := by
  have symmetric : Std.Symm fun t u : BuildTask => t.Clear output u ∧ u.Clear output t := ⟨fun _ _ => And.symm⟩
  have each : ∀ {t u}, t ∈ tasks → u ∈ tasks → u ≠ t → u.Clear output t ∧ t.Clear output u := fun mem mem' other =>
    clear.forall mem' mem other
  rintro (⟨t, mem, -, u, mem', other, disturbs⟩ | ⟨t, mem, ⟨front, leads, rfl⟩, u, mem', overwrites⟩)
  · exact (each mem mem' other).1.not_disturbs (each mem mem' other).2 (settled u mem') (settled t mem) direct disturbs
  · have placed := (settled t mem).placed direct
    have placed' := (settled u mem').placed direct
    have meant := placed.at []
    have meant' := placed'.at []
    rw [meant.namesOf_directory] at leads
    have straight : ".." ∉ front := fun up => meant.straight.1 (leads.subset up)
    rw [BuildTask.Overwrites, FileTree.walk_of_straight straight, List.nil_append, placed'.placeOf_target,
      placed'.placeOf_temporary] at overwrites
    have above : front <+: namesOf (t.target output) := leads.trans (meant.named ▸ Output.above_target _)
    by_cases other : u = t
    · subst other
      rw [meant.named, meant.namesOf_temporaryPath] at overwrites
      obtain rfl | below := overwrites
      · exact Output.target_not_above _ leads
      · exact Output.temporary_not_above _ (below.trans leads)
    · obtain ⟨target, temporary⟩ := (each mem mem' other).1
      obtain rfl | below := overwrites
      · exact target above
      · exact temporary (below.trans above)

end Clear

end Folio
