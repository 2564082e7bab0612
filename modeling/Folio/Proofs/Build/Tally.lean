import Folio.Build.Basic
import Mathlib.Tactic

/-!
# The failure that a build reports

Tasks end one after the other, in an order that nobody chose, and a task that fails makes the
others fail with a cancellation.  The tally is fed with the results in the order in which they come
in.  The failure that it keeps is the first that is more than a cancellation, wherever that one
stands among the cancellations that it brought about.

Main statement: `result_iff_foremost`.
-/

namespace Folio

variable {results before after : List (Except Failure Unit)} {failure other later : Failure} {tally : Tally}

/-! ## Cancellations -/

namespace Failure

/-- The failure says that the work was canceled, whatever the program was about. -/
def Cancellation (failure : Failure) : Prop :=
  ∃ activities : List Activity, failure = activities.foldr within (.ofFault .canceled)

theorem foldr_within (activities : List Activity) (failure : Failure) :
    activities.foldr within failure = ⟨activities ++ failure.during, failure.cause⟩ := by
  induction activities with
  | nil => rfl
  | cons activity activities ih => rw [List.foldr_cons, ih, within, List.cons_append]

/-- What a failure was met during does not make it more than a cancellation. -/
theorem isCanceled_iff : failure.isCanceled = true ↔ failure.Cancellation := by
  obtain ⟨during, cause⟩ := failure
  rw [isCanceled, beq_iff_eq]
  constructor
  · rintro rfl
    exact ⟨during, by rw [foldr_within]; simp [ofFault, of]⟩
  · rintro ⟨activities, same⟩
    rw [foldr_within] at same
    exact (Failure.mk.inj same).2

theorem isCanceled_eq_false_iff : failure.isCanceled = false ↔ ¬failure.Cancellation := by
  rw [← isCanceled_iff, Bool.not_eq_true]

end Failure

open Failure (Cancellation isCanceled_iff isCanceled_eq_false_iff)

/-! ## The foremost failure -/

/-- The failure to report where tasks have ended so, in this order: the first that is no
cancellation, or the first of all where there is none but cancellations. -/
inductive Foremost : List (Except Failure Unit) → Failure → Prop where
  | real (before : List (Except Failure Unit)) {after : List (Except Failure Unit)} {failure : Failure}
      (real : ¬failure.Cancellation) (only : ∀ other, .error other ∈ before → other.Cancellation) :
      Foremost (before ++ .error failure :: after) failure
  | cancellation (before : List (Except Failure Unit)) {after : List (Except Failure Unit)} {failure : Failure}
      (canceled : failure.Cancellation) (fine : ∀ result ∈ before, result = .ok ())
      (only : ∀ other, .error other ∈ after → other.Cancellation) :
      Foremost (before ++ .error failure :: after) failure

theorem Foremost.cons_ok (foremost : Foremost results failure) : Foremost (.ok () :: results) failure := by
  cases foremost with
  | @real before after _ real only => exact .real (.ok () :: before) real (by simpa using only)
  | @cancellation before after _ canceled fine only =>
    exact .cancellation (.ok () :: before) canceled (List.forall_mem_cons.2 ⟨rfl, fine⟩) only

/-- A cancellation in front changes nothing as long as something more is to come. -/
theorem Foremost.cons_canceled (foremost : Foremost results failure) (canceled : other.Cancellation)
    (more : .error later ∈ results) (real : ¬later.Cancellation) : Foremost (.error other :: results) failure := by
  cases foremost with
  | @real before after _ isReal only =>
    refine .real (.error other :: before) isReal fun first mem => ?_
    obtain same | mem := List.mem_cons.1 mem
    · obtain rfl := Except.error.inj same
      exact canceled
    · exact only first mem
  | @cancellation before after _ isCanceled fine only =>
    refine absurd ?_ real
    obtain mem | mem := List.mem_append.1 more
    · cases fine _ mem
    · obtain same | mem := List.mem_cons.1 mem
      · obtain rfl := Except.error.inj same
        exact isCanceled
      · exact only later mem

/-- Where a task has failed, there is a foremost failure. -/
theorem exists_foremost (failed : .error other ∈ results) : ∃ failure, Foremost results failure := by
  induction results generalizing other with
  | nil => contradiction
  | cons result results ih =>
    match result with
    | .ok () =>
      obtain ⟨failure, foremost⟩ := ih (by simpa using failed)
      exact ⟨failure, foremost.cons_ok⟩
    | .error first =>
      by_cases canceled : first.Cancellation
      · by_cases only : ∀ later, .error later ∈ results → later.Cancellation
        · exact ⟨first, .cancellation [] canceled (by simp) only⟩
        · obtain ⟨later, mem, real⟩ : ∃ later, .error later ∈ results ∧ ¬later.Cancellation := by simpa using only
          obtain ⟨failure, foremost⟩ := ih mem
          exact ⟨failure, foremost.cons_canceled canceled mem real⟩
      · exact ⟨first, .real [] canceled (by simp)⟩

/-! ## Adding results -/

namespace Tally

/-- A failure takes the place of a cancellation only, and gives way only if it is one. -/
theorem failure_of_add_error (kept : tally.failure = some failure)
    (stays : ¬failure.Cancellation ∨ other.Cancellation) : (tally.add (.error other)).failure = some failure := by
  have cond : (failure.isCanceled && !other.isCanceled) = false := by
    obtain real | canceled := stays
    · simp [isCanceled_eq_false_iff.2 real]
    · simp [isCanceled_iff.2 canceled]
  simp [add, report, kept, cond]

theorem failure_of_add_real (given : ∀ first, tally.failure = some first → first.Cancellation)
    (real : ¬failure.Cancellation) : (tally.add (.error failure)).failure = some failure := by
  cases kept : tally.failure with
  | none => simp [add, report, kept]
  | some first => simp [add, report, kept, isCanceled_iff.2 (given first kept), isCanceled_eq_false_iff.2 real]

/-- Once there is a failure that gives way to none of those to come, it stays. -/
theorem failure_of_foldl (kept : tally.failure = some failure)
    (stays : ¬failure.Cancellation ∨ ∀ other, .error other ∈ results → other.Cancellation) :
    (results.foldl add tally).failure = some failure := by
  induction results generalizing tally with
  | nil => exact kept
  | cons result results ih =>
    refine ih ?_ (stays.imp_right fun only other mem => only other (List.mem_cons_of_mem _ mem))
    match result with
    | .ok () => exact kept
    | .error other => exact failure_of_add_error kept (stays.imp_right fun only => only other (by simp))

/-- A failure that is kept has just come in, or has been kept before. -/
theorem failure_of_add (kept : (tally.add (.error other)).failure = some failure) :
    failure = other ∨ tally.failure = some failure := by
  rw [add, Option.some_inj] at kept
  subst kept
  cases tally.failure with
  | none => exact .inl rfl
  | some first =>
    rw [report]
    split_ifs
    · exact .inl rfl
    · exact .inr rfl

theorem ofResults_concat (results : List (Except Failure Unit)) (last : Except Failure Unit) :
    ofResults (results ++ [last]) = (ofResults results).add last := by
  simp [ofResults]

theorem ofResults_append_cons (before : List (Except Failure Unit)) (result : Except Failure Unit)
    (after : List (Except Failure Unit)) :
    ofResults (before ++ result :: after) = after.foldl add ((ofResults before).add result) := by
  simp [ofResults]

/-- Every failure that is kept is one of those that came in. -/
theorem mem_of_ofResults (kept : (ofResults results).failure = some failure) : .error failure ∈ results := by
  induction results using List.reverseRecOn with
  | nil => contradiction
  | append_singleton results last ih =>
    rw [ofResults_concat] at kept
    match last with
    | .ok () => exact List.mem_append_left _ (ih kept)
    | .error other =>
      obtain rfl | before := failure_of_add kept
      · simp
      · exact List.mem_append_left _ (ih before)

/-- What is known of tasks that have all succeeded. -/
theorem ofResults_of_fine (fine : ∀ result ∈ results, result = .ok ()) :
    ofResults results = ⟨results.length, none⟩ := by
  induction results using List.reverseRecOn with
  | nil => rfl
  | append_singleton results last ih =>
    rw [List.forall_mem_append] at fine
    obtain rfl := fine.2 last (by simp)
    simp [ofResults_concat, ih fine.1, add]

theorem failure_eq_some_iff : (ofResults results).failure = some failure ↔ Foremost results failure := by
  -- The foremost failure is kept, and where one is kept there is a foremost one.
  have keeps : ∀ {failure}, Foremost results failure → (ofResults results).failure = some failure := by
    intro failure foremost
    cases foremost with
    | @real before after _ real only =>
      rw [ofResults_append_cons]
      have canceled first (kept : (ofResults before).failure = some first) : first.Cancellation :=
        only first (mem_of_ofResults kept)
      exact failure_of_foldl (failure_of_add_real canceled real) (.inl real)
    | @cancellation before after _ canceled fine only =>
      rw [ofResults_append_cons, ofResults_of_fine fine]
      exact failure_of_foldl rfl (.inr only)
  refine ⟨fun kept => ?_, keeps⟩
  obtain ⟨foremost, is_foremost⟩ := exists_foremost (mem_of_ofResults kept)
  rw [keeps is_foremost, Option.some_inj] at kept
  rwa [← kept]

theorem failure_eq_none_iff : (ofResults results).failure = none ↔ ∀ result ∈ results, result = .ok () := by
  constructor
  · intro none result mem
    match result with
    | .ok () => rfl
    | .error failed =>
      obtain ⟨failure, foremost⟩ := exists_foremost mem
      rw [failure_eq_some_iff.2 foremost] at none
      contradiction
  · intro fine
    rw [ofResults_of_fine fine]

end Tally

/-! ## The results of a run -/

section Outcomes

variable {p : Plan} {tree : FileTree} {tasks : List BuildTask} {t : BuildTask} {progress : TaskProgress}

def TaskProgress.outcome (p : Plan) (before : TaskProgress) (t : BuildTask) : Except Failure Unit :=
  ((t.run p (Reducer.ofTools Builtin.toolbox before.tally.isCanceled)).perform before.tree).1

/-- How tasks end that are done one after the other, from here on. -/
def TaskProgress.outcomes (p : Plan) : TaskProgress → List BuildTask → List (Except Failure Unit)
  | _, [] => []
  | before, t :: tasks => before.outcome p t :: (before.next p t).outcomes p tasks

/-- How the tasks of a plan end that are done one after the other. -/
def outcomesOf (p : Plan) (tree : FileTree) (tasks : List BuildTask) : List (Except Failure Unit) :=
  TaskProgress.outcomes p ⟨tree, [], .empty⟩ tasks

theorem TaskProgress.next_tally (p : Plan) (before : TaskProgress) (t : BuildTask) :
    (before.next p t).tally = before.tally.add (before.outcome p t) := rfl

theorem TaskProgress.foldl_tally :
    (tasks.foldl (next p) progress).tally = (progress.outcomes p tasks).foldl Tally.add progress.tally := by
  induction tasks generalizing progress with
  | nil => rfl
  | cons t tasks ih => rw [List.foldl_cons, ih, next_tally, outcomes, List.foldl_cons]

theorem TaskProgress.outcomes_concat :
    progress.outcomes p (tasks ++ [t]) =
      progress.outcomes p tasks ++ [(tasks.foldl (next p) progress).outcome p t] := by
  induction tasks generalizing progress with
  | nil => rfl
  | cons first tasks ih => rw [List.cons_append, outcomes, ih, outcomes, List.foldl_cons, List.cons_append]

theorem runTasks_tally : (runTasks p tree tasks).tally = Tally.ofResults (outcomesOf p tree tasks) :=
  TaskProgress.foldl_tally

end Outcomes

/-- What is reported depends on how the tasks have ended, and on their order only as far as one of
several failures comes first.  All tasks are counted if all have succeeded; otherwise the report is
the foremost failure.  The work is canceled as soon as one task has failed.  A run of tasks reports
on how they end, each of them done with the work canceled or not by what came before. -/
theorem result_iff_foremost (results : List (Except Failure Unit)) :
    (∀ count, (Tally.ofResults results).result = .ok count ↔
        count = results.length ∧ ∀ result ∈ results, result = .ok ()) ∧
      (∀ failure, (Tally.ofResults results).result = .error failure ↔ Foremost results failure) ∧
      ((Tally.ofResults results).isCanceled = true ↔ ∃ failure, .error failure ∈ results) ∧
      ∀ p tree tasks, (runTasks p tree tasks).tally = Tally.ofResults (outcomesOf p tree tasks) ∧
        ∀ t, outcomesOf p tree (tasks ++ [t]) = outcomesOf p tree tasks ++
          [((t.run p (Reducer.ofTools Builtin.toolbox (Tally.ofResults (outcomesOf p tree tasks)).isCanceled)).perform
            (runTasks p tree tasks).tree).1] := by
  refine ⟨fun count => ?_, fun failure => ?_, ?_, fun p tree tasks => ⟨runTasks_tally, fun t => ?_⟩⟩
  · rw [Tally.result, ← Tally.failure_eq_none_iff]
    cases kept : (Tally.ofResults results).failure with
    | some failure => simp
    | none =>
      rw [Tally.ofResults_of_fine (Tally.failure_eq_none_iff.1 kept)]
      simp [eq_comm]
  · rw [Tally.result, ← Tally.failure_eq_some_iff]
    cases (Tally.ofResults results).failure <;> simp
  · rw [Tally.isCanceled, Option.isSome_iff_exists]
    constructor
    · rintro ⟨failure, kept⟩
      exact ⟨failure, Tally.mem_of_ofResults kept⟩
    · rintro ⟨_, mem⟩
      obtain ⟨failure, foremost⟩ := exists_foremost mem
      exact ⟨failure, Tally.failure_eq_some_iff.2 foremost⟩
  · rw [← runTasks_tally]
    exact TaskProgress.outcomes_concat

end Folio
