import Folio.Proofs.Build.Frame
import Folio.Proofs.Build.Finished

/-!
# Builds side by side

Two trees match if they have the same places and differ only in the contents of some files.  No path
can tell them apart, and an operation that does not read those files takes them to trees that match
again, where what it wrote is the same in both.  So tasks whose sources are the same come out the same
under every schedule: step for step, they do the same in both trees.

Main statement: `matches_runTasksBy`.
-/

namespace Folio

namespace FileTree

variable {rel rel' : Place → List UInt8 → List UInt8 → Prop} {a b : FileTree} {place : Place} {path : String}

/-- The same lies at each place, except for files whose contents are related. -/
def Matches (rel : Place → List UInt8 → List UInt8 → Prop) (a b : FileTree) : Prop :=
  ∀ place, a.get? place = b.get? place ∨
    ∃ x y, a.get? place = some (.file x) ∧ b.get? place = some (.file y) ∧ rel place x y

namespace Matches

theorem mono (matching : Matches rel a b) (weaker : ∀ place x y, rel place x y → rel' place x y) : Matches rel' a b :=
  fun place => (matching place).imp_right fun ⟨x, y, left, right, related⟩ =>
    ⟨x, y, left, right, weaker place x y related⟩

theorem same (matching : Matches rel a b) (unrelated : ∀ x y, ¬ rel place x y) : a.get? place = b.get? place :=
  (matching place).resolve_right fun ⟨x, y, _, _, related⟩ => unrelated x y related

/-! ## Paths -/

theorem isDirectoryAt (matching : Matches rel a b) (place : Place) : a.isDirectoryAt place = b.isDirectoryAt place := by
  obtain same | ⟨x, y, left, right, -⟩ := matching place
  · rw [FileTree.isDirectoryAt, same, FileTree.isDirectoryAt]
  · rw [FileTree.isDirectoryAt, left, FileTree.isDirectoryAt, right]
    rfl

theorem follow (matching : Matches rel a b) (place : Place) (names : List String) :
    a.follow place names = b.follow place names := by
  induction names generalizing place with
  | nil => rfl
  | cons name names ih =>
    obtain same | ⟨x, y, left, right, -⟩ := matching place
    · obtain below | ⟨x, y, left, right, -⟩ := matching (place ++ [name])
      · simp only [FileTree.follow, same, below, ih]
      · simp only [FileTree.follow, same, left, right, ih]
    · simp only [FileTree.follow, left, right]

theorem resolve (matching : Matches rel a b) (path : String) : a.resolve [] path = b.resolve [] path := by
  simp only [FileTree.resolve, matching.follow, matching.isDirectoryAt]

theorem destination (matching : Matches rel a b) (path : String) : a.destination [] path = b.destination [] path := by
  simp only [FileTree.destination, matching.follow, matching.isDirectoryAt]

/-- A path to a place where both trees have the same is read alike. -/
theorem readFile (matching : Matches rel a b) (here : a.get? (placeOf path) = b.get? (placeOf path)) :
    a.readFile [] path = b.readFile [] path := by
  rw [FileTree.readFile, FileTree.readFile, matching.resolve]
  cases reached : b.resolve [] path with
  | error fault => rfl
  | ok place =>
    obtain rfl := placeOf_of_resolve reached
    simp only [here]

/-! ## Changes -/

theorem put (matching : Matches rel a b) (place : Place) (node : FileNode) :
    Matches (fun other x y => other ≠ place ∧ rel other x y) (a.put place node) (b.put place node) := by
  intro other
  rw [get?_put, get?_put]
  by_cases here : other = place
  · rw [if_pos here, if_pos here]
    exact .inl rfl
  · rw [if_neg here, if_neg here]
    exact (matching other).imp_right fun ⟨x, y, left, right, related⟩ => ⟨x, y, left, right, here, related⟩

theorem remove (matching : Matches rel a b) (place : Place) : Matches rel (a.remove place) (b.remove place) := by
  intro other
  rw [get?_remove, get?_remove]
  split
  · exact .inl rfl
  · exact matching other

theorem makeBelow (matching : Matches rel a b) (place : Place) (names : List String) :
    Matches rel (a.makeBelow place names).1 (b.makeBelow place names).1 := by
  induction names generalizing a b place with
  | nil => exact matching
  | cons name names ih =>
    rw [FileTree.makeBelow, FileTree.makeBelow]
    split
    · exact ih matching _
    split
    · exact matching
    obtain same | ⟨x, y, left, right, -⟩ := matching (place ++ [name])
    · rw [same]
      cases b.get? (place ++ [name]) with
      | none => exact ih ((matching.put _ _).mono fun _ _ _ related => related.2) _
      | some node =>
        cases node with
        | directory => exact ih matching _
        | file bytes => exact matching
    · rw [left, right]
      exact matching

end Matches

/-- Both changes are refused for the same fault, or both are made and the trees match. -/
inductive MatchingResults (rel : Place → List UInt8 → List UInt8 → Prop) :
    Except FileFault FileTree → Except FileFault FileTree → Prop where
  | refused (fault : FileFault) : MatchingResults rel (.error fault) (.error fault)
  | made {a b : FileTree} (matching : Matches rel a b) : MatchingResults rel (.ok a) (.ok b)

namespace Matches

theorem writeFile (matching : Matches rel a b) (path : String) (bytes : List UInt8) :
    MatchingResults (fun place x y => place ≠ placeOf path ∧ rel place x y) (a.writeFile [] path bytes)
      (b.writeFile [] path bytes) := by
  rw [FileTree.writeFile, FileTree.writeFile, matching.destination]
  cases reached : b.destination [] path with
  | error fault => exact .refused _
  | ok place =>
    obtain rfl := placeOf_of_destination reached
    dsimp only
    rw [matching.isDirectoryAt]
    split
    · exact .refused _
    · exact .made (matching.put _ _)

/-- What is moved must be the same in both trees. -/
theorem moveFile (matching : Matches rel a b) {source : String} (here : a.get? (placeOf source) = b.get? (placeOf source))
    (target : String) :
    MatchingResults (fun place x y => place ≠ placeOf target ∧ rel place x y) (a.moveFile [] source target)
      (b.moveFile [] source target) := by
  rw [FileTree.moveFile, FileTree.moveFile, matching.resolve, matching.destination]
  cases resolved : b.resolve [] source with
  | error fault => exact .refused _
  | ok old =>
    obtain rfl := placeOf_of_resolve resolved
    cases reached : b.destination [] target with
    | error fault => exact .refused _
    | ok new =>
      obtain rfl := placeOf_of_destination reached
      dsimp only
      rw [matching.isDirectoryAt, here]
      split
      · exact .refused _
      · cases b.get? (placeOf source) with
        | none => exact .refused _
        | some node => exact .made ((matching.remove _).put _ node)

theorem discardFile (matching : Matches rel a b) (path : String) :
    Matches rel (a.discardFile [] path) (b.discardFile [] path) := by
  rw [FileTree.discardFile, FileTree.discardFile, matching.resolve]
  cases b.resolve [] path with
  | error fault => exact matching
  | ok place =>
    dsimp only
    rw [matching.isDirectoryAt]
    split
    · exact matching
    · exact matching.remove place

end Matches

end FileTree

open FileTree (Matches MatchingResults placeOf)

variable {rel : Place → List UInt8 → List UInt8 → Prop} {a b : FileTree} {p : Plan} {tasks : List BuildTask}

/-! ## Tasks -/

/-- The file of a task with this target lies at the place. -/
def TaskStage.HoldsAt (target : String) (place : Place) : TaskStage → Prop
  | .written => place = placeOf (temporaryPath target)
  | .ended (.ok _) | .joined (.ok _) => place = placeOf target
  | _ => False

namespace Workshop

variable {w : Workshop} {number : ℕ} {t : BuildTask} {stage next : TaskStage} {stages : List TaskStage} {place : Place}

/-- No file that a task has made lies at the place. -/
def Untouched (p : Plan) (tasks : List BuildTask) (stages : List TaskStage) (place : Place) : Prop :=
  ∀ (number : ℕ) (t : BuildTask) (stage : TaskStage), tasks[number]? = some t → stages[number]? = some stage →
    ¬ stage.HoldsAt (t.target p.output) place

/-- The trees match, except that what tasks have made is the same in both. -/
abbrev MatchesAt (p : Plan) (tasks : List BuildTask) (rel : Place → List UInt8 → List UInt8 → Prop)
    (stages : List TaskStage) (a b : FileTree) : Prop :=
  Matches (fun place x y => rel place x y ∧ Untouched p tasks stages place) a b

/-- A task comes to the next stage; what lies where it has its file by then must be the same in both trees. -/
theorem MatchesAt.set (made : Place → Prop)
    (matching : Matches (fun place x y => ¬ made place ∧ rel place x y ∧ Untouched p tasks stages place) a b)
    (holds : ∀ t place, tasks[number]? = some t → next.HoldsAt (t.target p.output) place → made place) :
    MatchesAt p tasks rel (stages.set number next) a b := by
  refine matching.mono fun place x y related => ⟨related.2.1, fun n t s task found => ?_⟩
  obtain ⟨rfl, rfl⟩ | ⟨-, found⟩ := stage_of_set found
  · exact fun here => related.1 (holds t place task here)
  · exact related.2.2 n t s task found

theorem MatchesAt.idle (matching : MatchesAt p tasks rel stages a b)
    (idle : ∀ target place, ¬ next.HoldsAt target place) : MatchesAt p tasks rel (stages.set number next) a b :=
  MatchesAt.set (fun _ => False) (matching.mono fun _ _ _ related => ⟨not_false, related⟩)
    fun _ place _ here => idle _ place here

def Alike (p : Plan) (tasks : List BuildTask) (rel : Place → List UInt8 → List UInt8 → Prop) (w w' : Workshop) : Prop :=
  ∃ b, w' = { w with tree := b } ∧ MatchesAt p tasks rel w.stages w.tree b

theorem isCanceled_in (w : Workshop) (b : FileTree) : Workshop.isCanceled { w with tree := b } = w.isCanceled := rfl

theorem isFinished_in (w : Workshop) (b : FileTree) : Workshop.isFinished { w with tree := b } = w.isFinished := rfl

theorem alike_write (matching : MatchesAt p tasks rel w.stages w.tree b) (task : tasks[number]? = some t)
    (bytes : List UInt8) :
    Alike p tasks rel (w.write number (t.target p.output) bytes)
      ({ w with tree := b }.write number (t.target p.output) bytes) := by
  simp only [write]
  have wrote := matching.writeFile (temporaryPath (t.target p.output)) bytes
  generalize w.tree.writeFile [] (temporaryPath (t.target p.output)) bytes = left at wrote
  generalize b.writeFile [] (temporaryPath (t.target p.output)) bytes = right at wrote
  cases wrote with
  | refused fault => exact ⟨b, rfl, matching.idle fun _ _ => id⟩
  | @made left right written =>
    refine ⟨right, rfl, MatchesAt.set _ written fun u place known here => ?_⟩
    obtain rfl := Option.some_inj.1 (task.symm.trans known)
    exact here

/-- What a task moves is the same in both trees, since the task has written it. -/
theorem alike_move (matching : MatchesAt p tasks rel w.stages w.tree b) (task : tasks[number]? = some t)
    (found : w.stages[number]? = some .written) :
    Alike p tasks rel (w.move number t (t.target p.output)) ({ w with tree := b }.move number t (t.target p.output)) := by
  cases canceled : w.isCanceled with
  | true =>
    rw [move_of_canceled canceled, move_of_canceled (isCanceled_in w b ▸ canceled)]
    exact ⟨b, rfl, matching.idle fun _ _ => id⟩
  | false =>
    rw [move_of_goesOn canceled, move_of_goesOn (isCanceled_in w b ▸ canceled)]
    have here : w.tree.get? (placeOf (temporaryPath (t.target p.output))) = b.get? (placeOf (temporaryPath (t.target p.output))) :=
      matching.same fun _ _ related => related.2 number t .written task found rfl
    have moved := matching.moveFile here (t.target p.output)
    generalize w.tree.moveFile [] (temporaryPath (t.target p.output)) (t.target p.output) = left at moved
    generalize b.moveFile [] (temporaryPath (t.target p.output)) (t.target p.output) = right at moved
    cases moved with
    | refused fault => exact ⟨b, rfl, matching.idle fun _ _ => id⟩
    | @made left right moved =>
      refine ⟨right, rfl, MatchesAt.set _ moved fun u place known here => ?_⟩
      obtain rfl := Option.some_inj.1 (task.symm.trans known)
      exact here

theorem alike_advance (matching : MatchesAt p tasks rel w.stages w.tree b) (task : tasks[number]? = some t)
    (source : w.tree.get? (placeOf t.source.physical) = b.get? (placeOf t.source.physical))
    (found : w.stages[number]? = some stage) (cancelFirst : Bool) :
    Alike p tasks rel (w.advance p number t cancelFirst stage) ({ w with tree := b }.advance p number t cancelFirst stage) := by
  cases stage with
  | waiting =>
    simp only [advance, matching.readFile source]
    cases b.readFile [] t.source.physical with
    | error fault => exact ⟨b, rfl, matching.idle fun _ _ => id⟩
    | ok bytes => exact ⟨b, rfl, matching.idle fun _ _ => id⟩
  | opened source =>
    simp only [advance, isCanceled]
    cases t.make p (Reducer.ofTools Builtin.toolbox (w.directories.isCanceled buildToken)) source with
    | error failure => exact ⟨b, rfl, matching.idle fun _ _ => id⟩
    | ok bytes => exact ⟨b, rfl, matching.idle fun _ _ => id⟩
  | made bytes => exact ⟨b, rfl, matching.idle fun _ _ => id⟩
  | asking call bytes =>
    simp only [advance, await]
    split
    · exact ⟨b, rfl, matching.idle fun _ _ => id⟩
    · exact ⟨b, rfl, matching.idle fun _ _ => id⟩
    · exact ⟨b, rfl, matching⟩
  | ready bytes => exact alike_write matching task bytes
  | written => exact alike_move matching task found
  | refused failure =>
    have discarded := matching.discardFile (temporaryPath (t.target p.output))
    exact ⟨_, rfl, MatchesAt.idle discarded fun _ _ => id⟩
  | ended result => exact ⟨b, rfl, matching⟩
  | joined result => exact ⟨b, rfl, matching⟩

theorem alike_join (matching : MatchesAt p tasks rel w.stages w.tree b) {result : Except Failure Unit}
    (found : w.stages[number]? = some (.ended result)) :
    Alike p tasks rel (w.join number result) ({ w with tree := b }.join number result) := by
  have joined : MatchesAt p tasks rel (w.stages.set number (.joined result)) w.tree b := by
    refine MatchesAt.set (fun place => ∃ t, tasks[number]? = some t ∧
      (TaskStage.joined result).HoldsAt (t.target p.output) place) (matching.mono fun place x y related => ⟨?_, related⟩)
      fun t place task here => ⟨t, task, here⟩
    rintro ⟨t, task, here⟩
    refine related.2 number t _ task found ?_
    cases result <;> exact here
  cases result <;> exact ⟨b, rfl, joined⟩

/-- Whatever happens, the same happens in both trees. -/
theorem alike_step (sources : ∀ t ∈ tasks, ∀ x y, ¬ rel (placeOf t.source.physical) x y)
    (matching : MatchesAt p tasks rel w.stages w.tree b) (event : BuildEvent) :
    Alike p tasks rel (w.step p tasks event) ({ w with tree := b }.step p tasks event) := by
  cases event with
  | task number cancelFirst =>
    simp only [step]
    split
    · rename_i t stage task found
      have source : w.tree.get? (placeOf t.source.physical) = b.get? (placeOf t.source.physical) :=
        matching.same fun x y related => sources t (List.mem_of_getElem? task) x y related.1
      exact alike_advance matching task source found cancelFirst
    · exact ⟨b, rfl, matching⟩
  | create attempt =>
    simp only [step, create]
    cases w.directories.attempts[attempt]? with
    | none => exact ⟨b, rfl, matching⟩
    | some a =>
      dsimp only
      split
      · exact ⟨b, rfl, matching⟩
      · exact ⟨_, rfl, matching.makeBelow _ _⟩
  | join number =>
    simp only [step]
    split
    · rename_i result found
      exact alike_join matching found
    · exact ⟨b, rfl, matching⟩
  | interrupt => exact ⟨b, rfl, matching⟩

theorem alike_run (sources : ∀ t ∈ tasks, ∀ x y, ¬ rel (placeOf t.source.physical) x y)
    (matching : MatchesAt p tasks rel w.stages w.tree b) (events : List BuildEvent) :
    Alike p tasks rel (w.run p tasks events) ({ w with tree := b }.run p tasks events) := by
  induction events generalizing w b with
  | nil => exact ⟨b, rfl, matching⟩
  | cons event events ih =>
    obtain ⟨b, same, matching⟩ := alike_step sources matching event
    rw [run, run, List.foldl_cons, List.foldl_cons, same]
    exact ih matching

end Workshop

/-- Tasks that find their sources the same come out the same under every schedule, and if all is well, so
does what they write. -/
theorem matches_runTasksBy (sources : ∀ t ∈ tasks, ∀ x y, ¬ rel (placeOf t.source.physical) x y)
    (matching : Matches rel a b) (events : List BuildEvent) :
    Option.Rel (fun done done' : TaskProgress => done.generated = done'.generated ∧ done.tally = done'.tally ∧
        Matches (fun place x y => rel place x y ∧
            (done.tally.failure = none → ∀ t ∈ tasks, place ≠ placeOf (t.target p.output))) done.tree done'.tree)
      (runTasksBy events p a tasks) (runTasksBy events p b tasks) := by
  have first : Workshop.MatchesAt p tasks rel (Workshop.start a tasks).stages a b := matching.mono fun _ _ _ related =>
    ⟨related, fun _ _ _ _ found => by rw [Workshop.stage_start found]; exact id⟩
  obtain ⟨after, same, matching⟩ := Workshop.alike_run sources first events
  have reached : Workshop.Reached p a tasks ((Workshop.start a tasks).run p tasks events) := ⟨events, rfl⟩
  rw [runTasksBy, runTasksBy, show Workshop.start b tasks = { Workshop.start a tasks with tree := b } from rfl, same]
  generalize (Workshop.start a tasks).run p tasks events = w at reached matching
  by_cases finished : w.isFinished = true
  · rw [if_pos finished, if_pos (Workshop.isFinished_in w after ▸ finished)]
    refine .some ⟨rfl, rfl, matching.mono fun place x y related => ⟨related.1, fun whole t mem here => ?_⟩⟩
    obtain ⟨number, task⟩ := List.mem_iff_getElem?.1 mem
    have inside : number < w.stages.length := Workshop.length_stages reached ▸ Directories.getElem?_lt task
    have joined := Workshop.joined_of_finished reached finished whole _ (List.getElem_mem inside)
    exact related.2 number t _ task (List.getElem?_eq_getElem inside) (by rw [joined]; exact here)
  · rw [if_neg finished, if_neg (Workshop.isFinished_in w after ▸ finished)]
    exact .none

end Folio
