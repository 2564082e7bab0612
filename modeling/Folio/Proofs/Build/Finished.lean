import Folio.Proofs.Build.Schedule

/-!
# Builds that come to their end

A failure is never forgotten: if a build comes to an end without one, every task succeeded, and each is
counted and reported once, whatever the schedule.

Main statements: `fine_induction`, `done_of_finished`.
-/

namespace Folio

def TaskStage.isFine : TaskStage → Bool
  | .refused _ | .ended (.error _) | .joined (.error _) => false
  | _ => true

def TaskStage.hasReported : TaskStage → Bool
  | .ended (.ok _) | .joined (.ok _) => true
  | _ => false

def TaskStage.isCounted : TaskStage → Bool
  | .joined (.ok _) => true
  | _ => false

namespace Workshop

variable {p : Plan} {tasks : List BuildTask} {w w' : Workshop} {number : ℕ} {t : BuildTask} {stage : TaskStage}
  {tree : FileTree} {events : List BuildEvent}

/-! ## Builds without a failure -/

def Fine (w : Workshop) : Prop :=
  ∀ stage ∈ w.stages, stage.isFine = true

theorem not_fine_of_set (found : w.stages[number]? = some stage) {next : TaskStage} (failed : next.isFine = false)
    (same : w'.stages = w.stages.set number next) : ¬ w'.Fine := fun fine => by
  have mem : next ∈ w'.stages := by
    rw [same]
    exact List.mem_set (Directories.getElem?_lt found) next
  rw [fine next mem] at failed
  cases failed

/-- What a task does if nothing goes wrong. -/
inductive Succeeds (p : Plan) (w : Workshop) (number : ℕ) (t : BuildTask) : TaskStage → Workshop → Prop where
  | opens {bytes : List UInt8} (read : w.tree.readFile [] t.source.physical = .ok bytes) :
      Succeeds p w number t .waiting (w.setStage number (.opened bytes))
  | makes {source bytes : List UInt8}
      (made : t.make p (Reducer.ofTools Builtin.toolbox w.isCanceled) source = .ok bytes) :
      Succeeds p w number t (.opened source) (w.setStage number (.made bytes))
  | asks {bytes : List UInt8} : Succeeds p w number t (.made bytes) (w.ask number (t.target p.output) bytes)
  | finds {call : ℕ} {bytes : List UInt8} {c : DirectoryCall} (cancelFirst : Bool)
      (found : (w.directories.step (.poll call cancelFirst)).calls[call]? = some c) (done : c.phase = .ended .done) :
      Succeeds p w number t (.asking call bytes)
        ({ w with directories := w.directories.step (.poll call cancelFirst) }.setStage number (.ready bytes))
  | writes {bytes : List UInt8} {written : FileTree}
      (wrote : w.tree.writeFile [] (temporaryPath (t.target p.output)) bytes = .ok written) :
      Succeeds p w number t (.ready bytes) ({ w with tree := written }.setStage number .written)
  | moves {moved : FileTree} (goesOn : w.isCanceled = false)
      (done : w.tree.moveFile [] (temporaryPath (t.target p.output)) (t.target p.output) = .ok moved) :
      Succeeds p w number t .written
        ({ w with tree := moved, generated := w.generated ++ [(t.kind, t.source.relative)] }.setStage number
          (.ended (.ok ())))

theorem Succeeds.advances (succeeds : Succeeds p w number t stage w') : Advances p w number t stage w' := by
  cases succeeds with
  | opens read => exact .opens read
  | makes made => exact .makes made
  | asks => exact .asks
  | finds cancelFirst found done => exact .finds cancelFirst found done
  | writes wrote => exact .writes wrote
  | moves goesOn done => exact .moves goesOn done

/-- A task that goes on, and nothing goes wrong, waits or succeeds. -/
theorem Advances.succeeds (advances : Advances p w number t stage w') (found : w.stages[number]? = some stage)
    (fine : w'.Fine) : w' = w ∨ (∃ call cancelFirst, w' = { w with directories := w.directories.step (.poll call cancelFirst) }) ∨
      Succeeds p w number t stage w' := by
  cases advances with
  | opens read => exact .inr (.inr (.opens read))
  | makes made => exact .inr (.inr (.makes made))
  | asks => exact .inr (.inr .asks)
  | @waits call _ cancelFirst => exact .inr (.inl ⟨call, cancelFirst, rfl⟩)
  | finds cancelFirst there done => exact .inr (.inr (.finds cancelFirst there done))
  | writes wrote => exact .inr (.inr (.writes wrote))
  | moves goesOn done => exact .inr (.inr (.moves goesOn done))
  | rests => exact .inl rfl
  | gone => exact .inl rfl
  | closed | unmade | leaves | unwritten | unmoved | discards => exact absurd fine (not_fine_of_set found rfl rfl)

theorem Fine.of_set (found : w.stages[number]? = some stage) (before : stage.isFine = true) {next : TaskStage}
    (same : w'.stages = w.stages.set number next) (fine : w'.Fine) : w.Fine := by
  intro s mem
  obtain ⟨n, there⟩ := List.mem_iff_getElem?.1 mem
  by_cases here : n = number
  · subst here
    exact Option.some_inj.1 (found.symm.trans there) ▸ before
  · refine fine s (List.mem_of_getElem? (i := n) ?_)
    rw [same, List.getElem?_set_ne (Ne.symm here), there]

/-- What goes wrong stays wrong. -/
theorem Succeeds.fine (succeeds : Succeeds p w number t stage w') (found : w.stages[number]? = some stage)
    (fine : w'.Fine) : w.Fine := by
  cases succeeds <;> exact fine.of_set found rfl rfl

/-- What holds before all tasks and is kept by all that can happen while nothing goes wrong holds after
events in which nothing went wrong. -/
theorem fine_induction {motive : Workshop → Prop} (before : motive (start tree tasks))
    (succeeds : ∀ w number t stage w', Reached p tree tasks w → motive w → tasks[number]? = some t →
      w.stages[number]? = some stage → Succeeds p w number t stage w' → motive w')
    (creates : ∀ w attempt, Reached p tree tasks w → motive w → motive (w.create attempt))
    (joins : ∀ w number, Reached p tree tasks w → motive w → w.stages[number]? = some (.ended (.ok ())) →
      motive (w.join number (.ok ())))
    (directs : ∀ w e, Reached p tree tasks w → motive w → motive { w with directories := w.directories.step e })
    (events : List BuildEvent) (fine : ((start tree tasks).run p tasks events).Fine) :
    motive ((start tree tasks).run p tasks events) := by
  refine run_induction (motive := fun w => w.Fine → motive w) (fun _ => before) ?_ ?_ ?_ ?_ events fine
  · intro w number t stage w' reached before task found advances fine
    obtain rfl | ⟨call, cancelFirst, rfl⟩ | goes := advances.succeeds found fine
    · exact before fine
    · exact directs w _ reached (before fine)
    · exact succeeds w number t stage w' reached (before (goes.fine found fine)) task found goes
  · intro w attempt reached before fine
    refine creates w attempt reached (before ?_)
    obtain same | ⟨a, -, directories, same, -⟩ := create_cases w attempt <;> rwa [same] at fine
  · intro w number result reached before found fine
    cases result with
    | ok => exact joins w number reached (before (fine.of_set found rfl rfl)) found
    | error failure => exact absurd fine (not_fine_of_set found rfl rfl)
  · exact fun w reached before fine => directs w _ reached (before fine)

/-- A failure that the build has seen is never forgotten. -/
theorem failure_ne_none (reached : Reached p tree tasks w) {failure : Failure}
    (mem : .joined (.error failure) ∈ w.stages) : w.tally.failure ≠ none := by
  obtain ⟨events, rfl⟩ := reached
  have earlier : ∀ {stages : List TaskStage} {next : TaskStage} {number failure},
      .joined (.error failure) ∈ stages.set number next → next ≠ .joined (.error failure) →
      .joined (.error failure) ∈ stages := fun mem other =>
    (List.mem_or_eq_of_mem_set mem).resolve_right other.symm
  revert failure
  refine run_induction (motive := fun w => ∀ {failure}, .joined (.error failure) ∈ w.stages → w.tally.failure ≠ none)
    ?_ ?_ ?_ ?_ ?_ events
  · intro failure mem
    obtain ⟨n, found⟩ := List.mem_iff_getElem?.1 mem
    exact nomatch stage_start found
  · intro w number t stage w' _ before _ _ advances failure mem
    cases advances with
    | waits | rests | gone => exact before mem
    | _ => exact before (earlier mem nofun)
  · intro w attempt _ before failure mem
    obtain same | ⟨a, -, directories, same, -⟩ := create_cases w attempt <;> rw [same] at mem ⊢ <;> exact before mem
  · intro w number result _ before _ failure mem
    cases result with
    | ok => exact before (earlier mem nofun)
    | error failure => exact Option.some_ne_none _
  · exact fun w _ before => before

/-- Where all tasks have been joined and no failure is known, every task has succeeded. -/
theorem joined_of_finished (reached : Reached p tree tasks w) (finished : w.isFinished = true)
    (whole : w.tally.failure = none) : ∀ stage ∈ w.stages, stage = .joined (.ok ()) := by
  intro stage mem
  have joined := List.all_eq_true.1 finished stage mem
  cases stage with
  | joined result =>
    cases result with
    | ok => rfl
    | error failure => exact absurd whole (failure_ne_none reached mem)
  | _ => cases joined

theorem exists_joined (reached : Reached p tree tasks w) (finished : w.isFinished = true) (whole : w.tally.failure = none)
    (mem : t ∈ tasks) : ∃ number : ℕ, tasks[number]? = some t ∧ w.stages[number]? = some (.joined (.ok ())) := by
  obtain ⟨number, task⟩ := List.mem_iff_getElem?.1 mem
  have inside : number < w.stages.length := length_stages reached ▸ Directories.getElem?_lt task
  refine ⟨number, task, List.getElem?_eq_some_iff.2 ⟨inside, ?_⟩⟩
  exact joined_of_finished reached finished whole _ (List.getElem_mem inside)

theorem fine_of_finished (reached : Reached p tree tasks w) (finished : w.isFinished = true)
    (whole : w.tally.failure = none) : w.Fine := by
  intro stage mem
  rw [joined_of_finished reached finished whole stage mem]
  rfl

/-! ## What is counted and reported -/

def tasksAt (at_ : TaskStage → Bool) (tasks : List BuildTask) (stages : List TaskStage) : List BuildTask :=
  ((tasks.zip stages).filter fun x => at_ x.2).map Prod.fst

variable {at_ : TaskStage → Bool} {stages : List TaskStage} {next : TaskStage}

theorem tasksAt_cons (at_ : TaskStage → Bool) (t : BuildTask) (tasks : List BuildTask) (stage : TaskStage)
    (stages : List TaskStage) : tasksAt at_ (t :: tasks) (stage :: stages) =
      if at_ stage then t :: tasksAt at_ tasks stages else tasksAt at_ tasks stages := by
  rw [tasksAt, List.zip_cons_cons, List.filter_cons]
  split <;> rfl

theorem tasksAt_set_of_same (found : stages[number]? = some stage) (same : at_ next = at_ stage) :
    tasksAt at_ tasks (stages.set number next) = tasksAt at_ tasks stages := by
  induction tasks generalizing stages number with
  | nil => rfl
  | cons t tasks ih =>
    cases stages with
    | nil => cases found
    | cons s stages =>
      cases number with
      | zero =>
        obtain rfl := Option.some_inj.1 found
        rw [List.set_cons_zero, tasksAt_cons, tasksAt_cons, same]
      | succ number =>
        rw [List.getElem?_cons_succ] at found
        rw [List.set_cons_succ, tasksAt_cons, tasksAt_cons, ih found]

theorem tasksAt_set_of_new (task : tasks[number]? = some t) (found : stages[number]? = some stage)
    (before : at_ stage = false) (after : at_ next = true) :
    (tasksAt at_ tasks (stages.set number next)).Perm (t :: tasksAt at_ tasks stages) := by
  induction tasks generalizing stages number with
  | nil => cases task
  | cons u tasks ih =>
    cases stages with
    | nil => cases found
    | cons s stages =>
      cases number with
      | zero =>
        obtain rfl := Option.some_inj.1 found
        obtain rfl := Option.some_inj.1 task
        rw [List.set_cons_zero, tasksAt_cons, tasksAt_cons, if_pos after, if_neg (by simp [before])]
      | succ number =>
        rw [List.getElem?_cons_succ] at task found
        rw [List.set_cons_succ, tasksAt_cons, tasksAt_cons]
        have rest := ih task found
        split
        · exact (rest.cons u).trans (.swap ..)
        · exact rest

theorem tasksAt_of_all (length : stages.length = tasks.length) (all : ∀ stage ∈ stages, at_ stage = true) :
    tasksAt at_ tasks stages = tasks := by
  rw [tasksAt, List.filter_eq_self.2 fun x mem => all x.2 (List.of_mem_zip mem).2]
  exact List.map_fst_zip length.ge

/-- Only what a task has made is reported. -/
theorem exists_task_of_generated (reached : Reached p tree tasks w) {made : FileKind × SitePath}
    (mem : made ∈ w.generated) : ∃ t ∈ tasks, made = (t.kind, t.source.relative) := by
  obtain ⟨events, rfl⟩ := reached
  revert made
  refine run_induction (motive := fun w => ∀ {made}, made ∈ w.generated → ∃ t ∈ tasks, made = (t.kind, t.source.relative))
    nofun ?_ ?_ ?_ ?_ events
  · intro w number t stage w' _ before task _ advances made mem
    cases advances with
    | moves =>
      obtain earlier | now := List.mem_append.1 mem
      · exact before earlier
      · exact ⟨t, List.mem_of_getElem? task, List.mem_singleton.1 now⟩
    | _ => exact before mem
  · intro w attempt _ before made mem
    obtain same | ⟨a, -, directories, same, -⟩ := create_cases w attempt <;> rw [same] at mem <;> exact before mem
  · intro w number result _ before _ made mem
    cases result <;> exact before mem
  · exact fun w _ before => before

/-- Each task that has reported its file is reported, and each that has been joined is counted. -/
structure Accounted (tasks : List BuildTask) (stages : List TaskStage) (generated : List (FileKind × SitePath))
    (count : ℕ) : Prop where
  reported : generated.Perm ((tasksAt TaskStage.hasReported tasks stages).map fun t => (t.kind, t.source.relative))
  counted : count = (tasksAt TaskStage.isCounted tasks stages).length

theorem Accounted.set {generated : List (FileKind × SitePath)} {count : ℕ}
    (accounted : Accounted tasks stages generated count) (found : stages[number]? = some stage)
    (reports : next.hasReported = stage.hasReported) (counts : next.isCounted = stage.isCounted) :
    Accounted tasks (stages.set number next) generated count where
  reported := by
    rw [tasksAt_set_of_same found reports]
    exact accounted.reported
  counted := by
    rw [tasksAt_set_of_same found counts]
    exact accounted.counted

theorem accounted_of_fine (fine : ((start tree tasks).run p tasks events).Fine) :
    let w := (start tree tasks).run p tasks events
    Accounted tasks w.stages w.generated w.tally.count := by
  refine fine_induction (motive := fun w => Accounted tasks w.stages w.generated w.tally.count) ?_ ?_ ?_ ?_ ?_ events fine
  · have none : ∀ at_ : TaskStage → Bool, at_ .waiting = false → tasksAt at_ tasks (start tree tasks).stages = [] := by
      intro at_ waiting
      rw [tasksAt, List.map_eq_nil_iff, List.filter_eq_nil_iff]
      intro x mem
      obtain ⟨n, found⟩ := List.mem_iff_getElem?.1 (List.of_mem_zip mem).2
      simp [stage_start found, waiting]
    exact ⟨by rw [none _ rfl]; rfl, by rw [none _ rfl]; rfl⟩
  · intro w number t stage w' _ before task found succeeds
    cases succeeds with
    | moves =>
      have reported : (tasksAt TaskStage.hasReported tasks (w.stages.set number (.ended (.ok ())))).Perm _ :=
        tasksAt_set_of_new task found rfl rfl
      have counted : tasksAt TaskStage.isCounted tasks (w.stages.set number (.ended (.ok ()))) = _ :=
        tasksAt_set_of_same found rfl
      refine ⟨?_, before.counted.trans (congrArg List.length counted).symm⟩
      have reports := reported.map fun t : BuildTask => (t.kind, t.source.relative)
      exact ((List.perm_append_singleton _ _).trans (before.reported.cons _)).trans reports.symm
    | _ => exact before.set found rfl rfl
  · intro w attempt _ before
    obtain same | ⟨a, -, directories, same, -⟩ := create_cases w attempt <;> rw [same] <;> exact before
  · intro w number reached before found
    have inside : number < tasks.length := length_stages reached ▸ Directories.getElem?_lt found
    have counted : (tasksAt TaskStage.isCounted tasks (w.stages.set number (.joined (.ok ())))).Perm _ :=
      tasksAt_set_of_new (List.getElem?_eq_getElem inside) found rfl rfl
    have reported : tasksAt TaskStage.hasReported tasks (w.stages.set number (.joined (.ok ()))) = _ :=
      tasksAt_set_of_same found rfl
    refine ⟨before.reported.trans (.of_eq (congrArg _ reported.symm)), ?_⟩
    exact (congrArg Nat.succ before.counted).trans counted.length_eq.symm
  · exact fun w e _ before => before

/-- A build that has come to its end without a failure has counted and reported each task once. -/
theorem done_of_finished (reached : Reached p tree tasks w) (finished : w.isFinished = true)
    (whole : w.tally.failure = none) :
    w.tally = ⟨tasks.length, none⟩ ∧ w.generated.Perm (tasks.map fun t => (t.kind, t.source.relative)) := by
  have joined := joined_of_finished reached finished whole
  have length := length_stages reached
  have fine := fine_of_finished reached finished whole
  obtain ⟨events, rfl⟩ := reached
  obtain ⟨reported, counted⟩ := accounted_of_fine fine
  rw [tasksAt_of_all length fun stage mem => by rw [joined stage mem]; rfl] at reported counted
  refine ⟨?_, reported⟩
  rw [← whole, ← counted]

end Workshop

theorem runTasksBy_eq_some_iff {p : Plan} {tree : FileTree} {tasks : List BuildTask} {events : List BuildEvent}
    {done : TaskProgress} : runTasksBy events p tree tasks = some done ↔
      ((Workshop.start tree tasks).run p tasks events).isFinished = true ∧
        ⟨((Workshop.start tree tasks).run p tasks events).tree, ((Workshop.start tree tasks).run p tasks events).generated,
          ((Workshop.start tree tasks).run p tasks events).tally⟩ = done :=
  Option.ite_none_right_eq_some.trans (and_congr_right fun _ => Option.some_inj)

end Folio
