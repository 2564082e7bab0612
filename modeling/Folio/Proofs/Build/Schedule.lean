import Folio.Build.Schedule
import Folio.Proofs.Directories.Outcome
import Folio.Proofs.Build.Runs

/-!
# Tasks at work together

What a task does when it goes on depends only on what it is at.  The calls for directories that tasks
make on the way are a run of such calls as any other, so a task that writes has seen that its directory
was made.

Main statements: `run_induction`, `carriedOut_of_hasDirectory`.
-/

namespace Folio

def TaskStage.hasDirectory : TaskStage → Bool
  | .ready _ | .written | .refused _ | .ended (.ok _) | .joined (.ok _) => true
  | _ => false

namespace Workshop

variable {p : Plan} {tasks : List BuildTask} {w w' : Workshop} {number : ℕ} {t : BuildTask} {stage : TaskStage}
  {tree : FileTree} {events : List BuildEvent}

@[simp] theorem setStage_tree (w : Workshop) (number : ℕ) (stage : TaskStage) : (w.setStage number stage).tree = w.tree := rfl

@[simp] theorem setStage_directories (w : Workshop) (number : ℕ) (stage : TaskStage) :
    (w.setStage number stage).directories = w.directories := rfl

@[simp] theorem setStage_carriedOut (w : Workshop) (number : ℕ) (stage : TaskStage) :
    (w.setStage number stage).carriedOut = w.carriedOut := rfl

@[simp] theorem setStage_stages (w : Workshop) (number : ℕ) (stage : TaskStage) :
    (w.setStage number stage).stages = w.stages.set number stage := rfl

theorem stage_of_set {stages : List TaskStage} {n : ℕ} {s : TaskStage} (found : (stages.set number stage)[n]? = some s) :
    n = number ∧ s = stage ∨ n ≠ number ∧ stages[n]? = some s := by
  by_cases here : n = number
  · subst here
    rw [List.getElem?_set_self'] at found
    obtain ⟨_, -, rfl⟩ := Option.map_eq_some_iff.1 found
    exact .inl ⟨rfl, rfl⟩
  · rw [List.getElem?_set_ne (Ne.symm here)] at found
    exact .inr ⟨here, found⟩

theorem stage_start (found : (start tree tasks).stages[number]? = some stage) : stage = .waiting := by
  simp only [start, List.getElem?_map, Option.map_eq_some_iff] at found
  obtain ⟨_, -, rfl⟩ := found
  rfl

theorem isCanceled_cancel (w : Workshop) : w.cancel.isCanceled = true := by
  rw [isCanceled, cancel, Directories.isCanceled_step, beq_self_eq_true, Bool.true_or]

@[simp] theorem tree_join (w : Workshop) (number : ℕ) (result : Except Failure Unit) : (w.join number result).tree = w.tree := by
  cases result <;> rfl

@[simp] theorem generated_join (w : Workshop) (number : ℕ) (result : Except Failure Unit) :
    (w.join number result).generated = w.generated := by
  cases result <;> rfl

@[simp] theorem tally_join (w : Workshop) (number : ℕ) (result : Except Failure Unit) :
    (w.join number result).tally = w.tally.add result := by
  cases result <;> rfl

@[simp] theorem stages_join (w : Workshop) (number : ℕ) (result : Except Failure Unit) :
    (w.join number result).stages = w.stages.set number (.joined result) := by
  cases result <;> rfl

/-! ## One step -/

/-- An attempt that is carried out makes its directory, and it comes back if it runs. -/
theorem create_cases (w : Workshop) (attempt : ℕ) : w.create attempt = w ∨ ∃ a : Attempt,
    w.directories.attempts[attempt]? = some a ∧ ∃ directories, w.create attempt =
      { w with tree := (w.tree.makeDirectories [] a.path).1, carriedOut := attempt :: w.carriedOut, directories } ∧
      (a.state = .running ∧ directories = w.directories.step (.creationReturns a.path) ∨ directories = w.directories) := by
  rw [create]
  split
  · exact .inl rfl
  · rename_i a begun
    split
    · exact .inl rfl
    · refine .inr ⟨a, begun, _, rfl, ?_⟩
      split
      · exact .inl ⟨by assumption, rfl⟩
      · exact .inr rfl

theorem move_of_canceled (canceled : w.isCanceled = true) (number : ℕ) (t : BuildTask) (target : String) :
    w.move number t target = w.setStage number (.refused (.ofFault .canceled)) :=
  if_pos canceled

theorem move_of_goesOn (goesOn : w.isCanceled = false) (number : ℕ) (t : BuildTask) (target : String) :
    w.move number t target =
      match w.tree.moveFile [] (temporaryPath target) target with
      | .ok tree =>
        { w with tree, generated := w.generated ++ [(t.kind, t.source.relative)] }.setStage number (.ended (.ok ()))
      | .error fault => w.setStage number (.refused (.ofFault (.file target fault))) :=
  if_neg (by simp [goesOn])

/-- What a task can do at a stage. -/
inductive Advances (p : Plan) (w : Workshop) (number : ℕ) (t : BuildTask) : TaskStage → Workshop → Prop where
  | opens {bytes : List UInt8} (read : w.tree.readFile [] t.source.physical = .ok bytes) :
      Advances p w number t .waiting (w.setStage number (.opened bytes))
  | closed (failure : Failure) : Advances p w number t .waiting (w.fail number t failure)
  | makes {source bytes : List UInt8}
      (made : t.make p (Reducer.ofTools Builtin.toolbox w.isCanceled) source = .ok bytes) :
      Advances p w number t (.opened source) (w.setStage number (.made bytes))
  | unmade {source : List UInt8} (failure : Failure) : Advances p w number t (.opened source) (w.fail number t failure)
  | asks {bytes : List UInt8} : Advances p w number t (.made bytes) (w.ask number (t.target p.output) bytes)
  | waits {call : ℕ} {bytes : List UInt8} (cancelFirst : Bool) :
      Advances p w number t (.asking call bytes) { w with directories := w.directories.step (.poll call cancelFirst) }
  | finds {call : ℕ} {bytes : List UInt8} {c : DirectoryCall} (cancelFirst : Bool)
      (found : (w.directories.step (.poll call cancelFirst)).calls[call]? = some c) (done : c.phase = .ended .done) :
      Advances p w number t (.asking call bytes)
        ({ w with directories := w.directories.step (.poll call cancelFirst) }.setStage number (.ready bytes))
  | leaves {call : ℕ} {bytes : List UInt8} (cancelFirst : Bool) :
      Advances p w number t (.asking call bytes)
        ({ w with directories := w.directories.step (.poll call cancelFirst) }.fail number t (.ofFault .canceled))
  | writes {bytes : List UInt8} {written : FileTree}
      (wrote : w.tree.writeFile [] (temporaryPath (t.target p.output)) bytes = .ok written) :
      Advances p w number t (.ready bytes) ({ w with tree := written }.setStage number .written)
  | unwritten {bytes : List UInt8} (failure : Failure) :
      Advances p w number t (.ready bytes) (w.setStage number (.refused failure))
  | moves {moved : FileTree} (goesOn : w.isCanceled = false)
      (done : w.tree.moveFile [] (temporaryPath (t.target p.output)) (t.target p.output) = .ok moved) :
      Advances p w number t .written
        ({ w with tree := moved, generated := w.generated ++ [(t.kind, t.source.relative)] }.setStage number
          (.ended (.ok ())))
  | unmoved (failure : Failure) : Advances p w number t .written (w.setStage number (.refused failure))
  | discards (failure : Failure) :
      Advances p w number t (.refused failure)
        ({ w with tree := w.tree.discardFile [] (temporaryPath (t.target p.output)) }.fail number t failure)
  | rests (result : Except Failure Unit) : Advances p w number t (.ended result) w
  | gone (result : Except Failure Unit) : Advances p w number t (.joined result) w

theorem advances_advance (p : Plan) (w : Workshop) (number : ℕ) (t : BuildTask) (cancelFirst : Bool) (stage : TaskStage) :
    Advances p w number t stage (w.advance p number t cancelFirst stage) := by
  cases stage with
  | waiting =>
    rw [advance]
    cases read : w.tree.readFile [] t.source.physical with
    | error fault => exact .closed _
    | ok bytes => exact .opens read
  | opened source =>
    rw [advance]
    cases made : t.make p (Reducer.ofTools Builtin.toolbox w.isCanceled) source with
    | error failure => exact .unmade _
    | ok bytes => exact .makes made
  | made bytes => exact .asks
  | asking call bytes =>
    rw [advance, await]
    cases found : (w.directories.step (.poll call cancelFirst)).calls[call]? with
    | none => exact .waits cancelFirst
    | some c =>
      obtain ⟨path, token, phase⟩ := c
      cases phase with
      | ended outcome =>
        cases outcome with
        | done => exact .finds cancelFirst found rfl
        | canceled => exact .leaves cancelFirst
        | dropped => exact .leaves cancelFirst
      | fresh => exact .waits cancelFirst
      | creating => exact .waits cancelFirst
      | waiting => exact .waits cancelFirst
  | ready bytes =>
    rw [advance, write]
    cases wrote : w.tree.writeFile [] (temporaryPath (t.target p.output)) bytes with
    | error fault => exact .unwritten _
    | ok written => exact .writes wrote
  | written =>
    rw [advance]
    cases canceled : w.isCanceled with
    | true =>
      rw [move_of_canceled canceled]
      exact .unmoved _
    | false =>
      rw [move_of_goesOn canceled]
      cases moved : w.tree.moveFile [] (temporaryPath (t.target p.output)) (t.target p.output) with
      | error fault => exact .unmoved _
      | ok tree => exact .moves canceled moved
  | refused failure => exact .discards _
  | ended result => exact .rests _
  | joined result => exact .gone _

theorem run_concat (p : Plan) (tasks : List BuildTask) (w : Workshop) (events : List BuildEvent) (e : BuildEvent) :
    w.run p tasks (events ++ [e]) = (w.run p tasks events).step p tasks e := by
  rw [run, run, List.foldl_append, List.foldl_cons, List.foldl_nil]

def Reached (p : Plan) (tree : FileTree) (tasks : List BuildTask) (w : Workshop) : Prop :=
  ∃ events, (start tree tasks).run p tasks events = w

/-- What holds before all tasks and is kept by everything that can happen holds after all events. -/
theorem run_induction {motive : Workshop → Prop} (before : motive (start tree tasks))
    (advances : ∀ w number t stage w', Reached p tree tasks w → motive w → tasks[number]? = some t →
      w.stages[number]? = some stage → Advances p w number t stage w' → motive w')
    (creates : ∀ w attempt, Reached p tree tasks w → motive w → motive (w.create attempt))
    (joins : ∀ w number result, Reached p tree tasks w → motive w → w.stages[number]? = some (.ended result) →
      motive (w.join number result))
    (cancels : ∀ w, Reached p tree tasks w → motive w → motive w.cancel) (events : List BuildEvent) :
    motive ((start tree tasks).run p tasks events) := by
  induction events using List.reverseRecOn with
  | nil => exact before
  | append_singleton events event ih =>
    have reached : Reached p tree tasks ((start tree tasks).run p tasks events) := ⟨events, rfl⟩
    rw [run_concat]
    generalize (start tree tasks).run p tasks events = w at ih reached
    cases event with
    | task number cancelFirst =>
      rw [step]
      split
      · rename_i t stage task found
        exact advances w number t stage _ reached ih task found (advances_advance p w number t cancelFirst stage)
      · exact ih
    | create attempt => exact creates w attempt reached ih
    | join number =>
      rw [step]
      split
      · rename_i result found
        exact joins w number result reached ih found
      · exact ih
    | interrupt => exact cancels w reached ih

theorem length_stages (reached : Reached p tree tasks w) : w.stages.length = tasks.length := by
  obtain ⟨events, rfl⟩ := reached
  refine run_induction (motive := fun w => w.stages.length = tasks.length) (by simp [start]) ?_ ?_ ?_ ?_ events
  · intro w number t stage w' _ before _ _ advances
    cases advances with
    | waits | rests | gone => exact before
    | _ => exact List.length_set.trans before
  · intro w attempt _ before
    obtain same | ⟨a, -, directories, same, -⟩ := create_cases w attempt <;> rw [same] <;> exact before
  · intro w number result _ before _
    cases result <;> exact List.length_set.trans before
  · exact fun w _ before => before

/-! ## Directories -/

theorem directories_join (w : Workshop) (number : ℕ) (result : Except Failure Unit) :
    (w.join number result).directories = w.directories ∨
      (w.join number result).directories = w.directories.step (.cancel buildToken) := by
  cases result with
  | ok => exact .inl rfl
  | error failure => exact .inr rfl

/-- Whatever the tasks do, their calls for directories are a run of calls. -/
theorem exists_directories_run (p : Plan) (tasks : List BuildTask) (tree : FileTree) (events : List BuildEvent) :
    ∃ calls, ((start tree tasks).run p tasks events).directories = Directories.empty.run calls := by
  have onward : ∀ {ds ds' : Directories}, (∃ calls, ds = Directories.empty.run calls) →
      (ds' = ds ∨ ∃ e, ds' = ds.step e) → ∃ calls, ds' = Directories.empty.run calls := by
    rintro _ _ ⟨calls, rfl⟩ (rfl | ⟨e, rfl⟩)
    · exact ⟨calls, rfl⟩
    · exact ⟨calls ++ [e], (Directories.run_concat _ calls e).symm⟩
  refine run_induction (motive := fun w => ∃ calls, w.directories = Directories.empty.run calls) ⟨[], rfl⟩ ?_ ?_ ?_ ?_ events
  · intro w number t stage w' _ before _ _ advances
    refine onward before ?_
    cases advances with
    | asks => exact .inr ⟨.call (FilePath.directory (t.target p.output)) buildToken, rfl⟩
    | @waits call _ cancelFirst => exact .inr ⟨.poll call cancelFirst, rfl⟩
    | @finds call _ _ cancelFirst => exact .inr ⟨.poll call cancelFirst, rfl⟩
    | @leaves call _ cancelFirst => exact .inr ⟨.poll call cancelFirst, rfl⟩
    | _ => exact .inl rfl
  · intro w attempt _ before
    refine onward before ?_
    obtain same | ⟨a, -, directories, same, ⟨-, rfl⟩ | rfl⟩ := create_cases w attempt <;> rw [same]
    · exact .inl rfl
    · exact .inr ⟨.creationReturns a.path, rfl⟩
    · exact .inl rfl
  · intro w number result _ before _
    exact onward before ((directories_join w number result).imp_right fun same => ⟨_, same⟩)
  · exact fun w _ before => onward before (.inr ⟨.cancel buildToken, rfl⟩)

/-- The calls are for the directories of the tasks, and what has come back was carried out. -/
structure Directed (p : Plan) (tasks : List BuildTask) (ds : Directories) (carriedOut : List ℕ)
    (stages : List TaskStage) : Prop where
  sound : ∃ owner, ds.Sound owner
  called : ∀ (i : ℕ) (c : DirectoryCall), ds.calls[i]? = some c →
    ∃ t ∈ tasks, c.path = FilePath.directory (t.target p.output)
  carried : ∀ (k : ℕ) (a : Attempt), ds.attempts[k]? = some a → a.state = .returned ∨ a.state = .completed →
    k ∈ carriedOut
  begun : ∀ k ∈ carriedOut, k < ds.attempts.length
  asking : ∀ (number : ℕ) (t : BuildTask) (call : ℕ) (bytes : List UInt8), tasks[number]? = some t →
    stages[number]? = some (.asking call bytes) →
      ∃ c : DirectoryCall, ds.calls[call]? = some c ∧ c.path = FilePath.directory (t.target p.output)
  there : ∀ (number : ℕ) (t : BuildTask) (stage : TaskStage), tasks[number]? = some t →
    stages[number]? = some stage → stage.hasDirectory = true →
      ∃ (k : ℕ) (a : Attempt), ds.attempts[k]? = some a ∧ a.state = .completed ∧
        FilePath.parts a.path = FilePath.parts (FilePath.directory (t.target p.output))

namespace Directed

variable {ds : Directories} {carriedOut : List ℕ} {stages : List TaskStage}

theorem start (p : Plan) (tree : FileTree) (tasks : List BuildTask) :
    Directed p tasks (start tree tasks).directories (start tree tasks).carriedOut (start tree tasks).stages where
  sound := ⟨id, Directories.sound_empty id⟩
  called := nofun
  carried := nofun
  begun := List.forall_mem_nil _
  asking _ _ _ _ _ found := nomatch stage_start found
  there _ _ _ _ found there := by
    rw [stage_start found] at there
    cases there

theorem set (directed : Directed p tasks ds carriedOut stages)
    (asks : ∀ t call bytes, tasks[number]? = some t → stage = .asking call bytes →
      ∃ c : DirectoryCall, ds.calls[call]? = some c ∧ c.path = FilePath.directory (t.target p.output))
    (finds : ∀ t, tasks[number]? = some t → stage.hasDirectory = true →
      ∃ (k : ℕ) (a : Attempt), ds.attempts[k]? = some a ∧ a.state = .completed ∧
        FilePath.parts a.path = FilePath.parts (FilePath.directory (t.target p.output))) :
    Directed p tasks ds carriedOut (stages.set number stage) where
  sound := directed.sound
  called := directed.called
  carried := directed.carried
  begun := directed.begun
  asking n t call bytes task found := by
    obtain ⟨rfl, same⟩ | ⟨-, found⟩ := stage_of_set found
    · exact asks t call bytes task same.symm
    · exact directed.asking n t call bytes task found
  there n t s task found there := by
    obtain ⟨rfl, rfl⟩ | ⟨-, found⟩ := stage_of_set found
    · exact finds t task there
    · exact directed.there n t s task found there

/-- Nothing that is known of calls and attempts is lost. -/
theorem step (directed : Directed p tasks ds carriedOut stages) (e : DirectoryEvent) {carriedOut' : List ℕ}
    (called : ∀ (i : ℕ) (c : DirectoryCall), (ds.step e).calls[i]? = some c →
      ∃ t ∈ tasks, c.path = FilePath.directory (t.target p.output))
    (carried : ∀ (k : ℕ) (a : Attempt), (ds.step e).attempts[k]? = some a →
      a.state = .returned ∨ a.state = .completed → k ∈ carriedOut')
    (begun : ∀ k ∈ carriedOut', k < ds.attempts.length) : Directed p tasks (ds.step e) carriedOut' stages := by
  obtain ⟨owner, sound⟩ := directed.sound
  have later := sound.later_step e
  refine ⟨⟨_, sound.step e⟩, called, carried, fun k mem => ?_, fun number t call bytes task found => ?_,
    fun number t stage task found there => ?_⟩
  · obtain ⟨b, attempt, -⟩ := later.attempts k _ (List.getElem?_eq_getElem (begun k mem))
    exact Directories.getElem?_lt attempt
  · obtain ⟨c, call, path⟩ := directed.asking number t call bytes task found
    obtain ⟨d, call, same, -⟩ := later.calls _ c call
    exact ⟨d, call, same.trans path⟩
  · obtain ⟨k, a, attempt, completed, path⟩ := directed.there number t stage task found there
    obtain ⟨b, attempt, same, settled⟩ := later.attempts k a attempt
    exact ⟨k, b, attempt, (settled (.inl completed)).trans completed, by rw [same, path]⟩

theorem call (directed : Directed p tasks ds carriedOut stages) (mem : t ∈ tasks) (token : String) :
    Directed p tasks (ds.step (.call (FilePath.directory (t.target p.output)) token)) carriedOut stages := by
  refine directed.step _ (fun i c found => ?_) directed.carried directed.begun
  obtain old | ⟨-, rfl⟩ := Directories.getElem?_concat_eq_some.1 found
  · exact directed.called i c old
  · exact ⟨t, mem, rfl⟩

theorem poll (directed : Directed p tasks ds carriedOut stages) (i : ℕ) (cancelFirst : Bool) :
    Directed p tasks (ds.step (.poll i cancelFirst)) carriedOut stages := by
  refine directed.step _ (fun j c found => ?_) (fun k a found back => ?_) directed.begun
  · obtain ⟨owner, sound⟩ := directed.sound
    obtain ⟨d, call, path⟩ := Directories.exists_call_of_poll sound found
    obtain ⟨t, mem, same⟩ := directed.called j d call
    exact ⟨t, mem, path.symm.trans same⟩
  · obtain ⟨b, attempt, back⟩ := Directories.back_of_poll found back
    exact directed.carried k b attempt back

theorem cancel (directed : Directed p tasks ds carriedOut stages) (token : String) :
    Directed p tasks (ds.step (.cancel token)) carriedOut stages := by
  refine directed.step _ (fun j c found => ?_) (fun k a found back => ?_) directed.begun
  · exact directed.called j c (by rwa [Directories.step_cancel] at found)
  · exact directed.carried k a (by rwa [Directories.step_cancel] at found) back

/-- Only the creation that was carried out comes back, since no other one runs for its directory. -/
theorem returns (directed : Directed p tasks ds carriedOut stages) {k : ℕ} {a : Attempt}
    (attempt : ds.attempts[k]? = some a) (running : a.state = .running) :
    Directed p tasks (ds.step (.creationReturns a.path)) (k :: carriedOut) stages := by
  refine directed.step _ directed.called (fun m b found back => ?_)
    (List.forall_mem_cons.2 ⟨Directories.getElem?_lt attempt, directed.begun⟩)
  obtain ⟨owner, sound⟩ := directed.sound
  obtain ⟨c, earlier, path, same | ⟨runs, -⟩⟩ := Directories.exists_of_returned found
  · exact List.mem_cons_of_mem _ (directed.carried m c earlier (by rwa [← same]))
  · have here : c.path = a.path := by
      by_contra other
      simp only [Directories.returnCreations, Directories.step, List.getElem?_map, earlier, Option.map_some,
        Option.some.injEq] at found
      rw [if_neg (by simp [other])] at found
      subst found
      simp [runs] at back
    have first := (sound.entry (FilePath.parts a.path) k).2 ⟨a, attempt, rfl, by simp [running]⟩
    have second := (sound.entry (FilePath.parts a.path) m).2 ⟨c, earlier, by rw [here], by simp [runs]⟩
    rw [first] at second
    exact Option.some_inj.1 second ▸ List.mem_cons_self

theorem advances (directed : Directed p tasks w.directories w.carriedOut w.stages) (task : tasks[number]? = some t)
    (found : w.stages[number]? = some stage) (advances : Workshop.Advances p w number t stage w') :
    Directed p tasks w'.directories w'.carriedOut w'.stages := by
  have mem : t ∈ tasks := List.mem_of_getElem? task
  have onward : ∀ {next : TaskStage}, stage.hasDirectory = true → (∀ call bytes, next ≠ .asking call bytes) →
      Directed p tasks w.directories w.carriedOut (w.stages.set number next) := fun there silent =>
    directed.set (fun _ call bytes _ same => absurd same (silent call bytes)) fun u task _ =>
      directed.there number u stage task found there
  cases advances with
  | opens => exact directed.set nofun nofun
  | closed => exact directed.set nofun nofun
  | makes => exact directed.set nofun nofun
  | unmade => exact directed.set nofun nofun
  | asks =>
    refine (directed.call mem buildToken).set (fun u call bytes known same => ?_) nofun
    obtain rfl := Option.some_inj.1 (task.symm.trans known)
    obtain ⟨rfl, -⟩ := TaskStage.asking.inj same
    exact ⟨_, Directories.getElem?_concat_eq_some.2 (.inr ⟨rfl, rfl⟩), rfl⟩
  | @waits call _ cancelFirst => exact directed.poll call cancelFirst
  | @finds call _ c cancelFirst there done =>
    have polled := directed.poll call cancelFirst
    refine polled.set nofun fun u known _ => ?_
    obtain ⟨owner, sound⟩ := polled.sound
    obtain ⟨d, called, path⟩ := polled.asking number u call _ known found
    obtain rfl := Option.some_inj.1 (there.symm.trans called)
    obtain ⟨k, a, attempt, same, completed⟩ := sound.finished call c there done
    exact ⟨k, a, attempt, completed, by rw [same, path]⟩
  | @leaves call _ cancelFirst => exact (directed.poll call cancelFirst).set nofun nofun
  | writes => exact onward rfl nofun
  | unwritten => exact onward rfl nofun
  | moves => exact onward rfl nofun
  | unmoved => exact onward rfl nofun
  | discards => exact directed.set nofun nofun
  | rests => exact directed
  | gone => exact directed

end Directed

theorem directed_run (p : Plan) (tree : FileTree) (tasks : List BuildTask) (events : List BuildEvent) :
    let w := (start tree tasks).run p tasks events
    Directed p tasks w.directories w.carriedOut w.stages := by
  refine run_induction (motive := fun w => Directed p tasks w.directories w.carriedOut w.stages)
    (Directed.start p tree tasks) ?_ ?_ ?_ ?_ events
  · exact fun w number t stage w' _ directed task found advances => directed.advances task found advances
  · intro w attempt _ directed
    obtain same | ⟨a, begun, directories, same, ⟨running, rfl⟩ | rfl⟩ := create_cases w attempt <;> rw [same]
    · exact directed
    · exact directed.returns begun running
    · exact { directed with
        carried := fun k a found back => List.mem_cons_of_mem _ (directed.carried k a found back)
        begun := List.forall_mem_cons.2 ⟨Directories.getElem?_lt begun, directed.begun⟩ }
  · intro w number result _ directed found
    have joined : Directed p tasks w.directories w.carriedOut (w.stages.set number (.joined result)) := by
      refine directed.set nofun fun t task there => directed.there number t _ task found ?_
      cases result <;> exact there
    cases result with
    | ok => exact joined
    | error failure => exact joined.cancel buildToken
  · exact fun w _ directed => directed.cancel buildToken

/-- Before a task writes its file, an attempt to create the directory of the file has been carried out. -/
theorem carriedOut_of_hasDirectory (p : Plan) (tree : FileTree) (tasks : List BuildTask) (events : List BuildEvent) :
    let w := (start tree tasks).run p tasks events
    ∀ (number : ℕ) (t : BuildTask) (stage : TaskStage), tasks[number]? = some t → w.stages[number]? = some stage →
      stage.hasDirectory = true →
        ∃ k ∈ w.carriedOut, ∃ a : Attempt, w.directories.attempts[k]? = some a ∧
          FilePath.parts a.path = FilePath.parts (FilePath.directory (t.target p.output)) := by
  intro w number t stage task found there
  have directed := directed_run p tree tasks events
  obtain ⟨k, a, attempt, completed, path⟩ := directed.there number t stage task found there
  exact ⟨k, directed.carried k a attempt (.inr completed), a, attempt, path⟩

end Workshop

end Folio
