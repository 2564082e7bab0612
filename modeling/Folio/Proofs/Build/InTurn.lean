import Folio.Proofs.Build.Contested
import Folio.Proofs.Directories.InTurn

/-!
# Tasks one after the other

If each task comes to its end before the next one begins, tasks that are done together come out as tasks
that are done in turn.  Then a directory is created for the first task that needs it; the others find it
there, and making it once more for each of them would change nothing.

Main statements: `exists_runTasksBy`, `exists_buildBy`.
-/

namespace Folio

open Calendar (Timestamp)
open FilePath (namesOf)
open FileTree (placeOf walk maxNameLength)

variable {tree after : FileTree} {place other : Place} {names : List String} {path : String} {p : Plan} {t : BuildTask}
  {tasks : List BuildTask}

/-! ## Ways -/

namespace FileTree

/-- There are directories all the way that the names lead. -/
structure Walkable (tree : FileTree) (names : List String) : Prop where
  directories : ∀ front, front <+: names → tree.get? (walk [] front) = some .directory
  short : ∀ name ∈ names, name.utf8ByteSize ≤ maxNameLength

theorem makeBelow_eq_self (there : ∀ front, front <+: names → tree.get? (walk place front) = some .directory)
    (short : ∀ name ∈ names, name.utf8ByteSize ≤ maxNameLength) : (tree.makeBelow place names).1 = tree := by
  induction names generalizing place with
  | nil => rfl
  | cons name names ih =>
    obtain ⟨fits, rest⟩ := List.forall_mem_cons.1 short
    have step : walk place [name] = if name = ".." then place.dropLast else place ++ [name] := rfl
    have further : ∀ front, front <+: names → tree.get? (walk (walk place [name]) front) = some .directory := by
      intro front leads
      rw [← walk_append]
      exact there _ (List.cons_prefix_cons.2 ⟨rfl, leads⟩)
    by_cases up : name = ".."
    · rw [step, if_pos up] at further
      rw [makeBelow, if_pos up]
      exact ih further rest
    · have next := there [name] (List.cons_prefix_cons.2 ⟨rfl, List.nil_prefix⟩)
      rw [step, if_neg up] at further next
      rw [makeBelow, if_neg up, if_neg (not_lt.2 fits), next]
      exact ih further rest

/-- What is above a place on a way was passed before. -/
theorem exists_walk_of_prefix (place : Place) (leads : other <+: walk place names) :
    other <+: place ∨ ∃ front, front <+: names ∧ other = walk place front := by
  induction names generalizing place with
  | nil => exact .inl leads
  | cons name names ih =>
    have step : walk place [name] = if name = ".." then place.dropLast else place ++ [name] := rfl
    obtain above | ⟨front, below, here⟩ := ih (walk place [name]) leads
    · split_ifs at step with up
      · exact .inl ((step ▸ above).trans (List.dropLast_prefix place))
      · obtain same | before := List.prefix_concat_iff.1 (step ▸ above)
        · exact .inr ⟨[name], List.cons_prefix_cons.2 ⟨rfl, List.nil_prefix⟩, same.trans step.symm⟩
        · exact .inl before
    · exact .inr ⟨name :: front, List.cons_prefix_cons.2 ⟨rfl, below⟩, here⟩

theorem walkable_of_writeFile {bytes : List UInt8} {name : String} (wrote : tree.writeFile [] path bytes = .ok after)
    (named : namesOf path = names ++ [name]) : tree.Walkable names := by
  obtain ⟨above, followed, directory⟩ := follow_of_writeFile wrote named
  exact ⟨fun front leads => directory_of_follow followed directory leads, short_of_follow followed⟩

namespace Walkable

theorem makeDirectories (walkable : tree.Walkable (namesOf path)) : (tree.makeDirectories [] path).1 = tree := by
  rw [FileTree.makeDirectories, startOf_top]
  exact makeBelow_eq_self walkable.directories walkable.short

theorem of_makeDirectories (walkable : tree.Walkable names) (path : String) :
    (tree.makeDirectories [] path).1.Walkable names where
  directories front leads := get?_makeBelow_of_some (walkable.directories front leads) _ _
  short := walkable.short

theorem put (walkable : tree.Walkable names) (free : tree.get? place ≠ some .directory) (node : FileNode) :
    (tree.put place node).Walkable names where
  directories front leads := by
    have directory := walkable.directories front leads
    rw [get?_put, if_neg, directory]
    rintro rfl
    exact free directory
  short := walkable.short

theorem remove (walkable : tree.Walkable names) (free : tree.get? place ≠ some .directory) :
    (tree.remove place).Walkable names where
  directories front leads := by
    rw [get?_remove, if_neg, walkable.directories front leads]
    intro below
    obtain top | ⟨front', leads', rfl⟩ := exists_walk_of_prefix [] below
    · rw [List.prefix_nil.1 top] at free
      exact free (walkable.directories [] List.nil_prefix)
    · exact free (walkable.directories front' (leads'.trans leads))
  short := walkable.short

theorem moveFile {source target : String} (walkable : tree.Walkable names)
    (file : tree.get? (placeOf source) ≠ some .directory) (moved : tree.moveFile [] source target = .ok after) :
    after.Walkable names := by
  obtain ⟨node, -, free, rfl⟩ := moveFile_eq_ok moved
  refine (walkable.remove file).put ?_ node
  rw [get?_remove]
  split
  · nofun
  · exact free

end Walkable

end FileTree

/-! ## One task -/

namespace Workshop

variable {w w' : Workshop} {number : ℕ} {stage : TaskStage} {generated : List (FileKind × SitePath)}
  {directories : Directories} {carriedOut : List ℕ}

def Reaches (p : Plan) (tasks : List BuildTask) (w w' : Workshop) : Prop :=
  ∃ events, w.run p tasks events = w'

theorem Reaches.trans {w'' : Workshop} (first : Reaches p tasks w w') (second : Reaches p tasks w' w'') :
    Reaches p tasks w w'' := by
  obtain ⟨events, rfl⟩ := first
  obtain ⟨more, rfl⟩ := second
  exact ⟨events ++ more, List.foldl_append⟩

theorem Reached.trans (reached : Reached p tree tasks w) (reaches : Reaches p tasks w w') : Reached p tree tasks w' := by
  obtain ⟨events, rfl⟩ := reached
  obtain ⟨more, rfl⟩ := reaches
  exact ⟨events ++ more, List.foldl_append⟩

theorem reaches_step (p : Plan) (tasks : List BuildTask) (w : Workshop) (event : BuildEvent) :
    Reaches p tasks w (w.step p tasks event) :=
  ⟨[event], rfl⟩

theorem setStage_self (found : w.stages[number]? = some stage) : w.setStage number stage = w := by
  obtain ⟨inside, here⟩ := List.getElem?_eq_some_iff.1 found
  rw [setStage, ← here, List.set_getElem_self]

@[simp] theorem setStage_setStage (w : Workshop) (number : ℕ) (stage next : TaskStage) :
    (w.setStage number stage).setStage number next = w.setStage number next := by
  rw [setStage, setStage, setStage, List.set_set]

@[simp] theorem isCanceled_setStage (w : Workshop) (number : ℕ) (stage : TaskStage) :
    (w.setStage number stage).isCanceled = w.isCanceled := rfl

/-- An attempt is carried out and comes back. -/
theorem reaches_created {k : ℕ} (p : Plan) (tasks : List BuildTask) (number : ℕ) (stage : TaskStage)
    (attempt : w.directories.attempts[k]? = some ⟨path, .running⟩) (fresh : k ∉ w.carriedOut)
    (made : (w.tree.makeDirectories [] path).1 = tree) (returns : w.directories.returnCreations path = directories) :
    Reaches p tasks (w.setStage number stage)
      ({ w with tree, directories, carriedOut := k :: w.carriedOut }.setStage number stage) := by
  refine ⟨[.create k], ?_⟩
  rw [run, List.foldl_cons, List.foldl_nil, step, create, setStage_directories, attempt]
  simp only [setStage, List.contains_eq_mem, fresh, decide_false, Bool.false_eq_true, if_false, if_true, Directories.step,
    made, returns]

section Turn

variable (task : tasks[number]? = some t) (inside : number < w.stages.length)

include task inside

theorem reaches_turn (goes : (w.setStage number stage).advance p number t true stage = w') :
    Reaches p tasks (w.setStage number stage) w' := by
  have found : (w.setStage number stage).stages[number]? = some stage := List.getElem?_set_self inside
  refine ⟨[.task number true], ?_⟩
  rw [run, List.foldl_cons, List.foldl_nil, step, task, found]
  exact goes

/-- A task reads its source and makes the bytes of its file, -/
theorem reaches_made {bytes : List UInt8}
    (made : t.productOf p (Reducer.ofTools Builtin.toolbox w.isCanceled) (w.tree.readFile [] t.source.physical) = .ok bytes) :
    Reaches p tasks (w.setStage number .waiting) (w.setStage number (.made bytes)) := by
  cases read : w.tree.readFile [] t.source.physical with
  | error fault =>
    rw [read] at made
    cases made
  | ok source =>
    rw [read, BuildTask.productOf] at made
    have opened : Reaches p tasks (w.setStage number .waiting) (w.setStage number (.opened source)) :=
      reaches_turn task inside (by simp only [advance, setStage_tree, read, setStage_setStage])
    refine opened.trans (reaches_turn task inside ?_)
    simp only [advance, isCanceled_setStage, made, setStage_setStage]

/-- or it ends. -/
theorem reaches_unmade {failure : Failure}
    (failed : t.productOf p (Reducer.ofTools Builtin.toolbox w.isCanceled) (w.tree.readFile [] t.source.physical) =
      .error failure) :
    Reaches p tasks (w.setStage number .waiting)
      (w.setStage number (.ended (.error (failure.within (.building t.source.physical))))) := by
  cases read : w.tree.readFile [] t.source.physical with
  | error fault =>
    rw [read, BuildTask.productOf, Except.error.injEq] at failed
    refine reaches_turn task inside ?_
    simp only [advance, setStage_tree, read, fail, setStage_setStage, failed]
  | ok source =>
    rw [read, BuildTask.productOf] at failed
    have opened : Reaches p tasks (w.setStage number .waiting) (w.setStage number (.opened source)) :=
      reaches_turn task inside (by simp only [advance, setStage_tree, read, setStage_setStage])
    refine opened.trans (reaches_turn task inside ?_)
    simp only [advance, isCanceled_setStage, failed, fail, setStage_setStage]

/-- A task calls for its directory. -/
theorem reaches_asked (bytes : List UInt8)
    (calls : w.directories.step (.call (FilePath.directory (t.target p.output)) buildToken) = directories) :
    Reaches p tasks (w.setStage number (.made bytes))
      ({ w with directories }.setStage number (.asking w.directories.calls.length bytes)) := by
  refine reaches_turn task inside ?_
  simp only [advance, ask, setStage, calls, List.set_set]

section Polled

variable {call : ℕ} {c : DirectoryCall} (bytes : List UInt8) (polls : w.directories.poll call true = directories)
  (polled : directories.calls[call]? = some c)

include polls polled

/-- It goes on when it is told that the directory is there, -/
theorem reaches_ready (done : c.phase = .ended .done) :
    Reaches p tasks (w.setStage number (.asking call bytes)) ({ w with directories }.setStage number (.ready bytes)) := by
  refine reaches_turn task inside ?_
  simp only [advance, await, setStage, Directories.step, polls, polled, Option.map_some, done, List.set_set]

/-- ends when it is told that the work is canceled, -/
theorem reaches_left (canceled : c.phase = .ended .canceled) :
    Reaches p tasks (w.setStage number (.asking call bytes))
      ({ w with directories }.setStage number
        (.ended (.error ((Failure.ofFault .canceled).within (.building t.source.physical))))) := by
  refine reaches_turn task inside ?_
  simp only [advance, await, fail, setStage, Directories.step, polls, polled, Option.map_some, canceled, List.set_set]

/-- and waits until then. -/
theorem reaches_waits {k : ℕ} (creating : c.phase = .creating k) :
    Reaches p tasks (w.setStage number (.asking call bytes))
      ({ w with directories }.setStage number (.asking call bytes)) := by
  refine reaches_turn task inside ?_
  simp only [advance, await, setStage, Directories.step, polls, polled, Option.map_some, creating]

end Polled

/-- A task in its directory writes its file and moves it to its place. -/
theorem reaches_written (goesOn : w.isCanceled = false) {bytes : List UInt8}
    (directed : (tree.makeDirectories [] (FilePath.directory (t.target p.output))).1 = w.tree)
    (wrote : (writeOutput (t.target p.output) bytes).perform tree = (.ok (), after)) :
    Reaches p tasks (w.setStage number (.ready bytes))
      ({ w with tree := after, generated := w.generated ++ [(t.kind, t.source.relative)] }.setStage number
        (.ended (.ok ()))) := by
  obtain ⟨between, wrote, moved⟩ := Output.writeOutput_eq_ok_iff.1 wrote
  rw [directed] at wrote
  have written : Reaches p tasks (w.setStage number (.ready bytes)) ({ w with tree := between }.setStage number .written) := by
    refine reaches_turn task inside ?_
    simp only [advance, write, setStage_tree, wrote]
    simp only [setStage, List.set_set]
  refine written.trans (reaches_turn (w := { w with tree := between }) task inside ?_)
  refine (move_of_goesOn (w := { w with tree := between }.setStage number .written) goesOn number t _).trans ?_
  simp only [setStage_tree, moved]
  simp only [setStage, List.set_set]

/-- A task whose file cannot come to its place takes it away again. -/
theorem reaches_unwritten (goesOn : w.isCanceled = false) {bytes : List UInt8} {failure : Failure}
    (directed : (tree.makeDirectories [] (FilePath.directory (t.target p.output))).1 = w.tree)
    (failed : (writeOutput (t.target p.output) bytes).perform tree = (.error failure, after)) :
    Reaches p tasks (w.setStage number (.ready bytes))
      ({ w with tree := after }.setStage number
        (.ended (.error (failure.within (.building t.source.physical))))) := by
  rw [Output.writeOutput_eq, directed] at failed
  have discards : ∀ between, Reaches p tasks ({ w with tree := between }.setStage number (.refused failure))
      ({ w with tree := between.discardFile [] (temporaryPath (t.target p.output)) }.setStage number
        (.ended (.error (failure.within (.building t.source.physical))))) := by
    intro between
    refine reaches_turn (w := { w with tree := between }) task inside ?_
    simp only [advance, fail, setStage, List.set_set]
  dsimp only at failed
  cases wrote : w.tree.writeFile [] (temporaryPath (t.target p.output)) bytes with
  | error fault =>
    rw [wrote] at failed
    obtain ⟨rfl, rfl⟩ : _ ∧ _ := by simpa using failed
    refine .trans (reaches_turn task inside ?_) (discards w.tree)
    simp only [advance, write, setStage_tree, wrote, setStage_setStage]
  | ok between =>
    have written : Reaches p tasks (w.setStage number (.ready bytes)) ({ w with tree := between }.setStage number .written) := by
      refine reaches_turn task inside ?_
      simp only [advance, write, setStage_tree, wrote]
      simp only [setStage, List.set_set]
    rw [wrote] at failed
    dsimp only at failed
    cases moved : between.moveFile [] (temporaryPath (t.target p.output)) (t.target p.output) with
    | ok tree =>
      rw [moved] at failed
      cases failed
    | error fault =>
      rw [moved] at failed
      obtain ⟨rfl, rfl⟩ : _ ∧ _ := by simpa using failed
      refine written.trans (.trans (reaches_turn (w := { w with tree := between }) task inside ?_) (discards between))
      refine (move_of_goesOn (w := { w with tree := between }.setStage number .written) goesOn number t _).trans ?_
      simp only [setStage_tree, moved, setStage_setStage]

/-- From the first state on, the task comes to its directory as in the second one, and no other is made. -/
def Directs (p : Plan) (tasks : List BuildTask) (t : BuildTask) (number : ℕ) (bytes : List UInt8) (start w : Workshop) :
    Prop :=
  ∃ ds carriedOut, Reaches p tasks start
      ({ w with
        tree := (w.tree.makeDirectories [] (FilePath.directory (t.target p.output))).1
        directories := ds
        carriedOut }.setStage number (.ready bytes)) ∧
    ds.Quiet ∧ ds.canceled = w.directories.canceled ∧
    ∀ (k : ℕ) (a : Attempt), ds.attempts[k]? = some a → a.state = .completed →
      w.directories.attempts[k]? = some a ∨ a.path = FilePath.directory (t.target p.output)

section Asking

variable {owner : ℕ → ℕ} {call : ℕ} (quiet : w.directories.Quiet) (goesOn : w.isCanceled = false)
  (asks : w.directories.calls[call]? = some ⟨FilePath.directory (t.target p.output), buildToken, .fresh⟩) (bytes : List UInt8)

include quiet goesOn asks

/-- A task whose directory was made before finds it there, -/
theorem directs_of_entry {k : ℕ} (sound : w.directories.Sound owner)
    (way : ∀ (k : ℕ) (a : Attempt), w.directories.attempts[k]? = some a → a.state = .completed →
      w.tree.Walkable (namesOf a.path))
    (counts : w.directories.entry? (FilePath.directory (t.target p.output)) = some k) :
    Directs p tasks t number bytes (w.setStage number (.asking call bytes)) w := by
  obtain ⟨polled, polls⟩ : ∃ ds, w.directories.poll call true = ds := ⟨_, rfl⟩
  obtain ⟨ended, attempts, canceled, a, attempt, completed, same⟩ :=
    Directories.ends_of_entry sound quiet asks rfl goesOn counts
  rw [polls] at ended attempts canceled
  have there := way k a attempt completed
  rw [FilePath.namesOf_eq_of_parts same] at there
  refine ⟨polled, w.carriedOut, ?_, ?_, canceled, fun m b found _ => .inl (attempts ▸ found)⟩
  · rw [there.makeDirectories]
    exact reaches_ready task inside bytes polls ended rfl
  · rwa [Directories.Quiet, attempts]

/-- and otherwise has it made. -/
theorem directs_of_new (fresh : w.directories.attempts.length ∉ w.carriedOut)
    (free : w.directories.entry? (FilePath.directory (t.target p.output)) = none) :
    Directs p tasks t number bytes (w.setStage number (.asking call bytes)) w := by
  -- What is only computed is named, so that no step looks into it.
  obtain ⟨made, makes⟩ : ∃ tree, (w.tree.makeDirectories [] (FilePath.directory (t.target p.output))).1 = tree := ⟨_, rfl⟩
  obtain ⟨polled, polls⟩ : ∃ ds, w.directories.poll call true = ds := ⟨_, rfl⟩
  obtain ⟨returned, returns⟩ : ∃ ds, polled.returnCreations (FilePath.directory (t.target p.output)) = ds := ⟨_, rfl⟩
  obtain ⟨after, ends⟩ : ∃ ds, returned.poll call true = ds := ⟨_, rfl⟩
  have begins := Directories.poll_of_new asks rfl goesOn free
  obtain ⟨ended, attempts, canceled⟩ := Directories.ends_of_new quiet asks rfl goesOn free
  have creating := Directories.calls_begin_self asks (FilePath.directory (t.target p.output))
  have attempt : (w.directories.begin call (FilePath.directory (t.target p.output))).attempts[w.directories.attempts.length]? =
      some ⟨FilePath.directory (t.target p.output), .running⟩ :=
    Directories.getElem?_concat_eq_some.2 (.inr ⟨rfl, rfl⟩)
  rw [← begins, polls] at creating attempt
  rw [polls, returns, ends] at ended attempts canceled
  have waits := reaches_waits (p := p) task inside bytes polls creating rfl
  have creates := reaches_created (w := { w with directories := polled }) p tasks number (.asking call bytes) attempt fresh
    makes returns
  have ready := reaches_ready (p := p)
    (w := { w with
      tree := made
      directories := returned
      carriedOut := w.directories.attempts.length :: w.carriedOut }) task inside bytes ends ended rfl
  refine ⟨after, w.directories.attempts.length :: w.carriedOut, ?_, quiet.of_concat attempts (.inl rfl), canceled,
    fun m b found _ => ?_⟩
  · rw [makes]
    exact (waits.trans creates).trans ready
  · rw [attempts] at found
    obtain before | ⟨-, rfl⟩ := Directories.getElem?_concat_eq_some.1 found
    · exact .inl before
    · exact .inr rfl

end Asking

/-- If no creation is under way and nothing is canceled, a task comes to its directory, which is made for it
unless it has been made before. -/
theorem reaches_directed (reached : Reached p tree tasks w) (quiet : w.directories.Quiet) (goesOn : w.isCanceled = false)
    (way : ∀ (k : ℕ) (a : Attempt), w.directories.attempts[k]? = some a → a.state = .completed →
      w.tree.Walkable (namesOf a.path)) (bytes : List UInt8) :
    Directs p tasks t number bytes (w.setStage number (.made bytes)) w := by
  obtain ⟨events, rfl⟩ := reached
  have directed := directed_run p tree tasks events
  generalize (start tree tasks).run p tasks events = w at *
  obtain ⟨owner, sound⟩ := directed.sound
  have called := sound.called (FilePath.directory (t.target p.output)) buildToken
  have asks := Directories.newCall w.directories (FilePath.directory (t.target p.output)) buildToken
  let u := { w with directories := w.directories.step (.call (FilePath.directory (t.target p.output)) buildToken) }
  have asking : Directs p tasks t number bytes (u.setStage number (.asking w.directories.calls.length bytes)) u := by
    cases counts : u.directories.entry? (FilePath.directory (t.target p.output)) with
    | some k => exact directs_of_entry (w := u) task inside quiet goesOn asks bytes called way counts
    | none => exact directs_of_new (w := u) task inside quiet goesOn asks bytes (fun mem => (directed.begun _ mem).false) counts
  obtain ⟨ds, carriedOut, directs, quiet', same, known⟩ := asking
  exact ⟨ds, carriedOut, (reaches_asked task inside bytes rfl).trans directs, quiet', same, known⟩

end Turn

/-- The ways to directories that have been made are there, unless the work has been canceled. -/
def Open (w : Workshop) : Prop :=
  w.isCanceled = false → ∀ (k : ℕ) (a : Attempt), w.directories.attempts[k]? = some a → a.state = .completed →
    w.tree.Walkable (namesOf a.path)

/-- A task has come to its end, and nothing else has happened. -/
structure Ends (t : BuildTask) (number : ℕ) (w w' : Workshop) (result : Except Failure Unit) : Prop where
  generated : w'.generated =
    match result with
    | .ok () => w.generated ++ [(t.kind, t.source.relative)]
    | .error _ => w.generated
  stages : w'.stages = w.stages.set number (.ended result)
  tally : w'.tally = w.tally
  canceled : w'.directories.canceled = w.directories.canceled
  quiet : w'.directories.Quiet
  way : result = .ok () → w'.Open

theorem goesOn_of_ends {w' : Workshop} (same : w'.directories.canceled = w.directories.canceled) :
    w'.isCanceled = w.isCanceled := by
  rw [isCanceled, Directories.isCanceled, same]
  rfl

section Ends

variable (reached : Reached p tree tasks w) (quiet : w.directories.Quiet) (task : tasks[number]? = some t)
  (inside : number < w.stages.length)

include quiet task inside

/-- A task whose work is canceled ends before its directory is made. -/
theorem exists_ends_of_canceled (canceled : w.isCanceled = true) (bytes : List UInt8) :
    ∃ w', Reaches p tasks (w.setStage number (.made bytes)) w' ∧ w'.tree = w.tree ∧
      Ends t number w w' (.error ((Failure.ofFault .canceled).within (.building t.source.physical))) := by
  obtain ⟨called, calls⟩ : ∃ ds, w.directories.step (.call (FilePath.directory (t.target p.output)) buildToken) = ds :=
    ⟨_, rfl⟩
  have asked := reaches_asked (p := p) task inside bytes calls
  have call := Directories.newCall w.directories (FilePath.directory (t.target p.output)) buildToken
  rw [calls] at call
  have quiet' : called.Quiet := calls ▸ quiet
  have same : called.canceled = w.directories.canceled := calls ▸ rfl
  have canceled' : called.isCanceled buildToken = true := calls ▸ canceled
  obtain ⟨ended, quiet'', same'⟩ := Directories.ends_of_canceled quiet' call rfl canceled'
  obtain ⟨polled, polls⟩ : ∃ ds, called.poll w.directories.calls.length true = ds := ⟨_, rfl⟩
  rw [polls] at ended quiet'' same'
  have left := reaches_left (p := p) (w := { w with directories := called }) task inside bytes polls ended rfl
  exact ⟨_, asked.trans left, rfl, rfl, rfl, rfl, same'.trans same, quiet'', nofun⟩

include reached

/-- Any other task makes its directory and writes its file there. -/
theorem exists_ends_of_goesOn (way : w.Open) (goesOn : w.isCanceled = false) {bytes : List UInt8}
    {result : Except Failure Unit}
    (wrote : (writeOutput (t.target p.output) bytes).perform w.tree = (result, after)) :
    ∃ w', Reaches p tasks (w.setStage number (.made bytes)) w' ∧ w'.tree = after ∧
      Ends t number w w' (result.mapError (Failure.within (.building t.source.physical))) := by
  obtain ⟨ds, carriedOut, directed, quiet', same, known⟩ := reaches_directed task inside reached quiet goesOn (way goesOn) bytes
  obtain ⟨made, makes⟩ : ∃ tree, (w.tree.makeDirectories [] (FilePath.directory (t.target p.output))).1 = tree := ⟨_, rfl⟩
  rw [makes] at directed
  have goesOn' : isCanceled { w with tree := made, directories := ds, carriedOut } = false :=
    (goesOn_of_ends (w := w) same).trans goesOn
  cases result with
  | error failure =>
    have unwritten := reaches_unwritten (w := { w with tree := made, directories := ds, carriedOut }) task inside goesOn'
      makes wrote
    exact ⟨_, directed.trans unwritten, rfl, rfl, rfl, rfl, same, quiet', nofun⟩
  | ok done =>
    have written := reaches_written (w := { w with tree := made, directories := ds, carriedOut }) task inside goesOn'
      makes wrote
    refine ⟨_, directed.trans written, rfl, rfl, rfl, rfl, same, quiet', fun _ _ k a attempt completed => ?_⟩
    obtain ⟨between, wrote, moved⟩ := Output.writeOutput_eq_ok_iff.1 wrote
    obtain ⟨free, put⟩ := FileTree.writeFile_eq_ok wrote
    have file : between.get? (placeOf (temporaryPath (t.target p.output))) ≠ some .directory := by
      rw [put, FileTree.get?_put, if_pos rfl]
      nofun
    have still : ∀ {names}, FileTree.Walkable _ names → after.Walkable names := fun walkable =>
      (put ▸ walkable.put free _ : between.Walkable _).moveFile file moved
    obtain before | here := known k a attempt completed
    · exact still ((way goesOn k a before completed).of_makeDirectories _)
    · rw [here]
      exact still (FileTree.walkable_of_writeFile wrote (Output.namesOf_temporaryPath _))

end Ends

/-- A task comes to the end that it comes to alone. -/
theorem exists_ends (reached : Reached p tree tasks w) (quiet : w.directories.Quiet) (way : w.Open)
    (task : tasks[number]? = some t) (found : w.stages[number]? = some .waiting) {result : Except Failure Unit}
    (ran : (t.run p (Reducer.ofTools Builtin.toolbox w.isCanceled)).perform w.tree = (result, after)) :
    ∃ w', Reaches p tasks w w' ∧ w'.tree = after ∧ Ends t number w w' result := by
  have inside : number < w.stages.length := Directories.getElem?_lt found
  have first : ∀ {w'}, Reaches p tasks (w.setStage number .waiting) w' → Reaches p tasks w w' := by
    intro w' reaches
    rwa [setStage_self found] at reaches
  rw [perform_run] at ran
  cases product : t.productOf p (Reducer.ofTools Builtin.toolbox w.isCanceled) (w.tree.readFile [] t.source.physical) with
  | error failure =>
    rw [product] at ran
    obtain ⟨rfl, rfl⟩ := Prod.mk.inj ran
    exact ⟨_, first (reaches_unmade task inside product), rfl, rfl, rfl, rfl, rfl, quiet, nofun⟩
  | ok bytes =>
    rw [product] at ran
    dsimp only at ran
    have made := first (reaches_made task inside product)
    rw [show (Reducer.ofTools Builtin.toolbox w.isCanceled).canceled = w.isCanceled from reducerOfDepth_canceled _ _ _] at ran
    cases canceled : w.isCanceled with
    | true =>
      rw [canceled, if_pos rfl] at ran
      obtain ⟨rfl, rfl⟩ := Prod.mk.inj ran
      obtain ⟨w', left, same, ends⟩ := exists_ends_of_canceled quiet task inside canceled bytes
      exact ⟨w', made.trans left, same, ends⟩
    | false =>
      rw [canceled, if_neg Bool.false_ne_true] at ran
      obtain ⟨⟨outcome, left⟩, wrote⟩ : ∃ done, (writeOutput (t.target p.output) bytes).perform w.tree = done := ⟨_, rfl⟩
      rw [wrote] at ran
      obtain ⟨rfl, rfl⟩ := Prod.mk.inj ran
      obtain ⟨w', written, same, ends⟩ := exists_ends_of_goesOn reached quiet task inside way canceled wrote
      exact ⟨w', made.trans written, same, ends⟩

/-! ## All tasks -/

/-- The first tasks have been joined, and the others wait; what has been done is what is done of them in turn. -/
structure InTurn (p : Plan) (tree : FileTree) (tasks : List BuildTask) (count : ℕ) (before : TaskProgress) (w : Workshop) :
    Prop where
  reached : Reached p tree tasks w
  quiet : w.directories.Quiet
  way : w.Open
  progress : TaskProgress.mk w.tree w.generated w.tally = before
  canceled : w.isCanceled = w.tally.isCanceled
  joined : ∀ (i : ℕ) (stage : TaskStage), i < count → w.stages[i]? = some stage → ∃ result, stage = .joined result
  waiting : ∀ (i : ℕ) (stage : TaskStage), count ≤ i → w.stages[i]? = some stage → stage = .waiting

theorem inTurn_start (p : Plan) (tree : FileTree) (tasks : List BuildTask) :
    InTurn p tree tasks 0 ⟨tree, [], .empty⟩ (start tree tasks) where
  reached := ⟨[], rfl⟩
  quiet := nofun
  way _ := nofun
  progress := rfl
  canceled := rfl
  joined _ _ below := absurd below (Nat.not_lt_zero _)
  waiting _ _ _ found := stage_start found

theorem quiet_cancel (quiet : w.directories.Quiet) : w.cancel.directories.Quiet := by
  rw [cancel, Directories.step_cancel]
  exact quiet

/-- The next task is done and joined. -/
theorem InTurn.next {before : TaskProgress} (turn : InTurn p tree tasks number before w) (task : tasks[number]? = some t) :
    ∃ w', InTurn p tree tasks (number + 1) (before.next p t) w' := by
  obtain ⟨reached, quiet, way, rfl, canceled, joined, waiting⟩ := turn
  have inside : number < w.stages.length := length_stages reached ▸ Directories.getElem?_lt task
  have found : w.stages[number]? = some .waiting := by
    rw [List.getElem?_eq_getElem inside, waiting number _ le_rfl (List.getElem?_eq_getElem inside)]
  obtain ⟨⟨result, after⟩, ran⟩ :
      ∃ done, (t.run p (Reducer.ofTools Builtin.toolbox w.isCanceled)).perform w.tree = done := ⟨_, rfl⟩
  obtain ⟨w', reaches, rfl, generated, stages, tally, same, quiet', way'⟩ := exists_ends reached quiet way task found ran
  have ended : w'.stages[number]? = some (.ended result) := by
    rw [stages, List.getElem?_set_self inside]
  have joins : Reaches p tasks w' (w'.join number result) := by
    refine ⟨[.join number], ?_⟩
    rw [run, List.foldl_cons, List.foldl_nil, step, ended]
  have joinedStages : (w'.join number result).stages = w.stages.set number (.joined result) := by
    rw [stages_join, stages, List.set_set]
  refine ⟨w'.join number result, reached.trans (reaches.trans joins), ?_, ?_, ?_, ?_, fun i stage below now => ?_,
    fun i stage beyond now => ?_⟩
  · cases result with
    | ok => exact quiet'
    | error failure => exact quiet_cancel quiet'
  · cases result with
    | ok => exact way' rfl
    | error failure =>
      have stopped : (w'.join number (.error failure)).isCanceled = true := isCanceled_cancel _
      exact fun goesOn => Bool.noConfusion (stopped.symm.trans goesOn)
  · cases result <;>
      simp only [TaskProgress.next, ← canceled, ran, tree_join, generated_join, tally_join, generated, tally]
  · cases result with
    | ok =>
      rw [tally_join, tally]
      exact (goesOn_of_ends same).trans canceled
    | error failure => exact isCanceled_cancel _
  · rw [joinedStages] at now
    obtain ⟨-, rfl⟩ | ⟨other, now⟩ := stage_of_set now
    · exact ⟨result, rfl⟩
    · exact joined i stage (by omega) now
  · rw [joinedStages] at now
    obtain ⟨rfl, -⟩ | ⟨-, now⟩ := stage_of_set now
    · omega
    · exact waiting i stage (by omega) now

theorem exists_inTurn (p : Plan) (tree : FileTree) (tasks : List BuildTask) :
    ∀ count ≤ tasks.length, ∃ w, InTurn p tree tasks count ((tasks.take count).foldl (TaskProgress.next p) ⟨tree, [], .empty⟩) w := by
  intro count fits
  induction count with
  | zero => exact ⟨_, inTurn_start p tree tasks⟩
  | succ count ih =>
    obtain ⟨w, turn⟩ := ih (by omega)
    obtain ⟨w', next⟩ := turn.next (List.getElem?_eq_getElem (show count < tasks.length by omega))
    refine ⟨w', ?_⟩
    rwa [List.take_add_one, List.getElem?_eq_getElem, Option.toList_some, List.foldl_append, List.foldl_cons, List.foldl_nil]

end Workshop

/-- Doing tasks in turn is one way to do them together. -/
theorem exists_runTasksBy (p : Plan) (tree : FileTree) (tasks : List BuildTask) :
    ∃ events, runTasksBy events p tree tasks = some (runTasks p tree tasks) := by
  obtain ⟨w, turn⟩ := Workshop.exists_inTurn p tree tasks tasks.length le_rfl
  obtain ⟨events, rfl⟩ := turn.reached
  refine ⟨events, runTasksBy_eq_some_iff.2 ⟨List.all_eq_true.2 fun stage mem => ?_, ?_⟩⟩
  · obtain ⟨i, found⟩ := List.mem_iff_getElem?.1 mem
    have inside : i < tasks.length := Workshop.length_stages turn.reached ▸ Directories.getElem?_lt found
    obtain ⟨result, rfl⟩ := turn.joined i stage inside found
    rfl
  · rw [turn.progress, List.take_length, runTasks]

theorem exists_buildFromWith (tree : FileTree) (settings : Settings) (now : Timestamp) :
    ∃ events, buildFromWith (runTasksBy events) tree settings now = some (buildFrom tree settings now) := by
  simp only [buildFrom, buildFromWith]
  cases survey tree settings (Reducer.ofTools Builtin.toolbox false) (settings.siteScope now) with
  | error failure => exact ⟨[], rfl⟩
  | ok found =>
    dsimp only
    cases plan tree settings (Reducer.ofTools Builtin.toolbox false) (settings.siteScope now) found.published with
    | error failure => exact ⟨[], rfl⟩
    | ok p =>
      obtain ⟨events, done⟩ := exists_runTasksBy p tree found.tasks
      exact ⟨events, congrArg (· >>= _) done⟩

/-- So building a site task by task is one way to build it. -/
theorem exists_buildBy (tree : FileTree) (settings : Settings) (now : Timestamp) (canceled : Bool) :
    ∃ events, buildBy events tree settings now canceled = some (build tree settings now canceled) := by
  simp only [buildBy, build, buildWith]
  cases canceled with
  | true => exact ⟨[], rfl⟩
  | false =>
    simp only [Bool.false_eq_true, if_false]
    cases cleanOutput tree settings with
    | error failure => exact ⟨[], rfl⟩
    | ok cleaned => exact exists_buildFromWith cleaned settings now

end Folio
