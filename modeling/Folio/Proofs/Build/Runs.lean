import Folio.Build.Basic
import Folio.Proofs.Build.Output

/-!
# Tasks in any order

A task reads its source, makes a file of it, and writes that.  Tasks that are not in each
other's way, and do not write over each other's sources, come to the same end in whatever
order they are done.

Main statement: `Runs.perm`.
-/

namespace Folio

open FileTree (Open Lies maxNameLength)
open FilePath (IsDirect namesOf)

/-! ## What a task does -/

/-- What a task makes of what reading its source comes to. -/
def BuildTask.productOf (p : Plan) (r : Reducer) (t : BuildTask) :
    Except FileFault (List UInt8) → Except Failure (List UInt8)
  | .error fault => .error (.ofFault (.file t.source.physical fault))
  | .ok bytes => t.make p r bytes

section Tasks

variable {p : Plan} {r : Reducer} {t u : BuildTask} {tree written a b c : FileTree}

theorem perform_readSource (s : Source) (tree : FileTree) :
    (readSource s).perform tree =
      ((tree.readFile [] s.physical).mapError fun fault => .ofFault (.file s.physical fault), tree) := by
  rw [readSource, FileWork.perform_bind, FileWork.perform_look]
  dsimp only
  cases tree.readFile [] s.physical <;> rfl

theorem perform_product (p : Plan) (r : Reducer) (t : BuildTask) (tree : FileTree) :
    (t.product p r).perform tree = (t.productOf p r (tree.readFile [] t.source.physical), tree) := by
  rw [BuildTask.product, FileWork.perform_bind, perform_readSource]
  cases tree.readFile [] t.source.physical with
  | error fault => rfl
  | ok bytes => exact FileWork.perform_ofExcept _ tree

theorem perform_run (p : Plan) (r : Reducer) (t : BuildTask) (tree : FileTree) : (t.run p r).perform tree =
    match t.productOf p r (tree.readFile [] t.source.physical) with
    | .error failure => (.error (failure.within (.building t.source.physical)), tree)
    | .ok bytes =>
      if r.canceled then (.error ((Failure.ofFault .canceled).within (.building t.source.physical)), tree)
      else (((writeOutput (t.target p.output) bytes).perform tree).1.mapError
        (Failure.within (.building t.source.physical)), ((writeOutput (t.target p.output) bytes).perform tree).2) := by
  rw [BuildTask.run, FileWork.perform_within, FileWork.perform_bind, perform_product]
  cases t.productOf p r (tree.readFile [] t.source.physical) with
  | error failure => rfl
  | ok bytes =>
    dsimp only
    split <;> rfl

def Does (p : Plan) (t : BuildTask) (tree written : FileTree) : Prop :=
  (t.run p (Reducer.ofTools Builtin.toolbox false)).perform tree = (.ok (), written)

theorem does_iff : Does p t tree written ↔
    ∃ bytes, t.productOf p (Reducer.ofTools Builtin.toolbox false) (tree.readFile [] t.source.physical) = .ok bytes ∧
      (writeOutput (t.target p.output) bytes).perform tree = (.ok (), written) := by
  rw [Does, BuildTask.run, FileWork.perform_within_eq_ok, FileWork.perform_bind_eq_ok]
  constructor
  · rintro ⟨bytes, between, made, wrote⟩
    rw [perform_product] at made
    obtain ⟨product, rfl⟩ := Prod.mk.inj made
    exact ⟨bytes, product, wrote⟩
  · rintro ⟨bytes, made, wrote⟩
    exact ⟨bytes, tree, by rw [perform_product, made], wrote⟩

end Tasks

/-! ## Runs -/

/-- The tasks are all done, in this order. -/
inductive Runs (p : Plan) : FileTree → List BuildTask → FileTree → Prop where
  | nil (tree : FileTree) : Runs p tree [] tree
  | cons {tree between written : FileTree} {t : BuildTask} {tasks : List BuildTask}
      (done : Does p t tree between)
      (rest : Runs p between tasks written) : Runs p tree (t :: tasks) written

section Progress

variable {p : Plan} {before : TaskProgress} {t : BuildTask} {tasks : List BuildTask} {tree written : FileTree}

theorem next_of_done (fine : before.tally.failure = none)
    (done : Does p t before.tree written) : (before.next p t).tally.failure = none ∧
      (before.next p t).tree = written := by
  rw [Does] at done
  have goesOn : before.tally.isCanceled = false := by simp [Tally.isCanceled, fine]
  simp only [TaskProgress.next, goesOn, done]
  exact ⟨fine, trivial⟩

theorem next_of_failed {failure : Failure} (fine : before.tally.failure = none)
    (failed : (t.run p (Reducer.ofTools Builtin.toolbox false)).perform before.tree = (.error failure, written)) :
    (before.next p t).tally.failure ≠ none := by
  have goesOn : before.tally.isCanceled = false := by simp [Tally.isCanceled, fine]
  simp [TaskProgress.next, goesOn, failed, Tally.add]

theorem next_after_failure (failed : before.tally.failure ≠ none) : (before.next p t).tally.failure ≠ none := by
  simp only [TaskProgress.next]
  rcases (t.run p _).perform before.tree with ⟨_ | _, _⟩
  · simp [Tally.add]
  · exact failed

theorem foldl_next_after_failure (failed : before.tally.failure ≠ none) :
    (tasks.foldl (TaskProgress.next p) before).tally.failure ≠ none := by
  induction tasks generalizing before with
  | nil => exact failed
  | cons t tasks ih => exact ih (next_after_failure failed)

theorem foldl_next_iff (fine : before.tally.failure = none) :
    (tasks.foldl (TaskProgress.next p) before).tally.failure = none ∧
      (tasks.foldl (TaskProgress.next p) before).tree = written ↔ Runs p before.tree tasks written := by
  induction tasks generalizing before with
  | nil =>
    constructor
    · rintro ⟨-, rfl⟩
      exact .nil _
    · rintro ⟨⟩
      exact ⟨fine, rfl⟩
  | cons t tasks ih =>
    rw [List.foldl_cons]
    rcases outcome : (t.run p (Reducer.ofTools Builtin.toolbox false)).perform before.tree with ⟨failure | _, between⟩
    -- A failure is never forgotten, and a run has none.
    · refine iff_of_false (fun done => foldl_next_after_failure (next_of_failed fine outcome) done.1) fun run => ?_
      cases run with
      | cons done rest =>
        rw [Does, outcome] at done
        simp at done
    · obtain ⟨still, rfl⟩ := next_of_done fine outcome
      rw [ih still]
      constructor
      · exact .cons outcome
      · intro run
        cases run with
        | cons done rest =>
          rw [Does, outcome] at done
          obtain rfl := (Prod.mk.inj done).2
          exact rest

theorem Tally.result_eq_ok_iff {tally : Tally} {count : ℕ} :
    tally.result = .ok count ↔ tally.failure = none ∧ tally.count = count := by
  rw [Tally.result]
  cases tally.failure <;> simp

/-- Only what a task has made is reported. -/
theorem mem_generated {made : FileKind × SitePath} (mem : made ∈ (tasks.foldl (TaskProgress.next p) before).generated) :
    made ∈ before.generated ∨ ∃ t ∈ tasks, made = (t.kind, t.source.relative) := by
  induction tasks generalizing before with
  | nil => exact .inl mem
  | cons t tasks ih =>
    obtain earlier | ⟨u, listed, same⟩ := ih mem
    · simp only [TaskProgress.next] at earlier
      split at earlier
      · obtain before | now := List.mem_append.1 earlier
        · exact .inl before
        · exact .inr ⟨t, List.mem_cons_self, List.mem_singleton.1 now⟩
      · exact .inl earlier
    · exact .inr ⟨u, List.mem_cons_of_mem _ listed, same⟩

theorem runTasks_iff : (runTasks p tree tasks).tally.failure = none ∧ (runTasks p tree tasks).tree = written ↔
    Runs p tree tasks written :=
  foldl_next_iff rfl

/-- What is known after a run. -/
theorem foldl_next_of_runs (fine : before.tally.failure = none) (run : Runs p before.tree tasks written) :
    tasks.foldl (TaskProgress.next p) before =
      ⟨written, before.generated ++ tasks.map (fun t => (t.kind, t.source.relative)),
        ⟨before.tally.count + tasks.length, none⟩⟩ := by
  induction tasks generalizing before with
  | nil =>
    cases run
    obtain ⟨tree, generated, count, failure⟩ := before
    obtain rfl : failure = none := fine
    simp
  | cons t tasks ih =>
    cases run with
    | @cons _ between _ _ _ done rest =>
      have goesOn : before.tally.isCanceled = false := by simp [Tally.isCanceled, fine]
      have next : before.next p t = ⟨between, before.generated ++ [(t.kind, t.source.relative)],
          ⟨before.tally.count + 1, none⟩⟩ := by
        rw [Does] at done
        simp only [TaskProgress.next, goesOn, done, Tally.add, fine]
      rw [List.foldl_cons, next, ih rfl rest]
      simp [Nat.add_comm, Nat.add_left_comm]

theorem runTasks_of_runs (run : Runs p tree tasks written) :
    runTasks p tree tasks = ⟨written, tasks.map fun t => (t.kind, t.source.relative), ⟨tasks.length, none⟩⟩ := by
  have whole := @foldl_next_of_runs p ⟨tree, [], .empty⟩ tasks written rfl run
  rwa [List.nil_append, show Tally.empty.count + tasks.length = tasks.length from Nat.zero_add _] at whole

end Progress

/-! ## Reordering -/

/-- The task leaves alone what another one needs: its target, the way to it, and its source. -/
structure BuildTask.Spares (output : String) (t u : BuildTask) : Prop where
  target : namesOf (t.target output) ≠ namesOf (u.target output)
  way : ¬ namesOf (temporaryPath (t.target output)) <+: namesOf (u.target output)
  source : namesOf u.source.physical ≠ namesOf (t.target output) ∧
    namesOf u.source.physical ≠ namesOf (temporaryPath (t.target output))

/-- The task writes to a path that names something. -/
structure BuildTask.Placed (output : String) (t : BuildTask) : Prop where
  direct : IsDirect (t.target output)
  named : namesOf (t.target output) ≠ []

/-- The file that a task writes if it makes these bytes. -/
def BuildTask.outputOf (output : String) (t : BuildTask) (bytes : List UInt8) : Output :=
  ⟨(namesOf (t.target output)).dropLast, (namesOf (t.target output)).getLastD "", bytes⟩

namespace BuildTask

variable {output : String} {t u : BuildTask} {bytes others : List UInt8}

theorem Placed.at (placed : t.Placed output) (bytes : List UInt8) : (t.outputOf output bytes).At (t.target output) := by
  refine ⟨placed.direct, ?_⟩
  obtain ⟨names, name, named⟩ := (List.eq_nil_or_concat (namesOf (t.target output))).resolve_left placed.named
  rw [Output.target, outputOf, named]
  simp

theorem Spares.apart (placed : t.Placed output) (placed' : u.Placed output) (spares : t.Spares output u)
    (spared : u.Spares output t) : (t.outputOf output bytes).Apart (u.outputOf output others) where
  targets := by
    rw [← (placed.at bytes).named, ← (placed'.at others).named]
    exact spares.target
  left := by
    rw [← (placed'.at others).named, ← (placed.at bytes).namesOf_temporaryPath]
    exact spares.way
  right := by
    rw [← (placed.at bytes).named, ← (placed'.at others).namesOf_temporaryPath]
    exact spared.way

end BuildTask

section Reordering

variable {p : Plan} {t u : BuildTask} {tasks others : List BuildTask} {a b c : FileTree}

def BuildTask.Sourced (t : BuildTask) (tree : FileTree) : Prop :=
  ∃ bytes, Lies tree.get? (namesOf t.source.physical) bytes

theorem Does.ready (placed : t.Placed p.output) (done : Does p t a b) :
    ∃ bytes, t.productOf p (Reducer.ofTools Builtin.toolbox false) (a.readFile [] t.source.physical) = .ok bytes ∧
      (t.outputOf p.output bytes).Ready a.get? ∧ b.get? = (t.outputOf p.output bytes).after a.get? := by
  obtain ⟨bytes, made, wrote⟩ := does_iff.mp done
  exact ⟨bytes, made, Output.ready_of_writeOutput (placed.at bytes) wrote⟩

theorem exists_does {bytes : List UInt8} (placed : t.Placed p.output)
    (made : t.productOf p (Reducer.ofTools Builtin.toolbox false) (a.readFile [] t.source.physical) = .ok bytes)
    (ready : (t.outputOf p.output bytes).Ready a.get?) :
    ∃ b, Does p t a b ∧ b.get? = (t.outputOf p.output bytes).after a.get? := by
  obtain ⟨b, wrote⟩ := Output.exists_writeOutput (placed.at bytes) ready
  exact ⟨b, does_iff.mpr ⟨bytes, made, wrote⟩, (Output.ready_of_writeOutput (placed.at bytes) wrote).2⟩

/-- Trees with the same nodes cannot be told apart by a task. -/
theorem Does.congr (placed : t.Placed p.output) (same : a.get? = b.get?) (done : Does p t a c) :
    ∃ d, Does p t b d ∧ c.get? = d.get? := by
  obtain ⟨bytes, made, ready, written⟩ := done.ready placed
  rw [FileTree.readFile_congr same] at made
  rw [same] at ready written
  obtain ⟨d, done, after⟩ := exists_does placed made ready
  exact ⟨d, done, written.trans after.symm⟩

theorem Does.sourced (placed : t.Placed p.output) (spares : t.Spares p.output u) (done : Does p t a b)
    (sourced : u.Sourced a) : u.Sourced b ∧ b.readFile [] u.source.physical = a.readFile [] u.source.physical := by
  obtain ⟨bytes, -, ready, written⟩ := done.ready placed
  obtain ⟨contents, lies⟩ := sourced
  have still : Lies b.get? (namesOf u.source.physical) contents := by
    rw [written]
    refine ready.lies lies ?_ ?_
    · rw [← (placed.at bytes).named]
      exact spares.source.1
    · rw [← (placed.at bytes).namesOf_temporaryPath]
      exact spares.source.2
  exact ⟨⟨contents, still⟩, by rw [still.readFile, lies.readFile]⟩

theorem Does.swap (placed : t.Placed p.output) (placed' : u.Placed p.output) (spares : t.Spares p.output u)
    (spared : u.Spares p.output t) (sourced : t.Sourced a) (sourced' : u.Sourced a) (first : Does p t a b)
    (second : Does p u b c) : ∃ d e, Does p u a d ∧ Does p t d e ∧ c.get? = e.get? := by
  obtain ⟨bytes, made, ready, written⟩ := first.ready placed
  obtain ⟨others, made', ready', written'⟩ := second.ready placed'
  rw [written] at ready' written'
  -- Neither task changes what the other reads, so both make the same bytes in either order.
  rw [(first.sourced placed spares sourced').2] at made'
  obtain ⟨earlier, later, same⟩ := Output.swap (spares.apart placed placed' spared) ready ready'
  obtain ⟨d, done, between⟩ := exists_does placed' made' earlier
  rw [← (done.sourced placed' spared sourced).2] at made
  rw [← between] at later same
  obtain ⟨e, done', after⟩ := exists_does placed made later
  exact ⟨d, e, done, done', by rw [written', same, after]⟩

theorem Runs.congr (placed : ∀ t ∈ tasks, t.Placed p.output) (same : a.get? = b.get?) (run : Runs p a tasks c) :
    ∃ d, Runs p b tasks d ∧ c.get? = d.get? := by
  induction run generalizing b with
  | nil => exact ⟨b, .nil b, same⟩
  | cons done rest ih =>
    obtain ⟨between, done, same⟩ := done.congr (placed _ List.mem_cons_self) same
    obtain ⟨d, rest, same⟩ := ih (fun t mem => placed t (List.mem_cons_of_mem _ mem)) same
    exact ⟨d, .cons done rest, same⟩

/-- Tasks that spare each other come to the same end in whatever order they are done. -/
theorem Runs.perm (perm : tasks.Perm others) (placed : ∀ t ∈ tasks, t.Placed p.output)
    (spares : tasks.Pairwise fun t u => t.Spares p.output u ∧ u.Spares p.output t)
    (sourced : ∀ t ∈ tasks, t.Sourced a) (run : Runs p a tasks c) : ∃ d, Runs p a others d ∧ c.get? = d.get? := by
  induction perm generalizing a c with
  | nil =>
    cases run
    exact ⟨a, .nil a, rfl⟩
  | cons t perm ih =>
    rw [List.forall_mem_cons] at placed sourced
    rw [List.pairwise_cons] at spares
    cases run with
    | cons done rest =>
      have still := fun u mem => (done.sourced placed.1 (spares.1 u mem).1 (sourced.2 u mem)).1
      obtain ⟨d, rest, same⟩ := ih placed.2 spares.2 still rest
      exact ⟨d, .cons done rest, same⟩
  | swap t u tasks =>
    simp only [List.forall_mem_cons] at placed sourced
    have between := (List.pairwise_cons.mp spares).1 t List.mem_cons_self
    cases run with
    | cons first run =>
      cases run with
      | cons second rest =>
        obtain ⟨_, e, first, second, same⟩ :=
          first.swap placed.1 placed.2.1 between.1 between.2 sourced.1 sourced.2.1 second
        obtain ⟨d, rest, same⟩ := rest.congr placed.2.2 same
        exact ⟨d, .cons first (.cons second rest), same⟩
  | trans first second ih ih' =>
    obtain ⟨d, run, same⟩ := ih placed spares sourced run
    have spares := (first.pairwise_iff And.symm).mp spares
    obtain ⟨e, run, same'⟩ := ih' (fun t mem => placed t (first.mem_iff.mpr mem)) spares
      (fun t mem => sourced t (first.mem_iff.mpr mem)) run
    exact ⟨e, run, same.trans same'⟩

end Reordering

end Folio
