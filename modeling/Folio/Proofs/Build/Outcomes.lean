import Folio.Proofs.Build.Contested
import Folio.Proofs.Build.Inputs

/-!
# Builds under all schedules

A build that succeeds has done all its tasks, whatever the schedule.  So two builds of one site that
succeed report the same files and leave the same everywhere but at contested places, and nothing has
changed where no task wrote or needed a directory.

Main statements: `builds_agree`, `not_contested_of_builds`, `changed_by_task`.
-/

namespace Folio

open Calendar (Timestamp)

variable {tree : FileTree} {settings : Settings} {now : Timestamp} {events events' : List BuildEvent}
  {left right : BuildOutcome} {count count' : ℕ}

/-- How a build goes that comes to its tasks: they are done and counted. -/
structure BuildsBy (events : List BuildEvent) (tree : FileTree) (settings : Settings) (now : Timestamp)
    (outcome : BuildOutcome) (found : Survey) (p : Plan) (done : TaskProgress) : Prop where
  surveyed : survey tree settings (Reducer.ofTools Builtin.toolbox false) (settings.siteScope now) = .ok found
  output : p.output = settings.build.output
  planned : plan tree settings (Reducer.ofTools Builtin.toolbox false) (settings.siteScope now) found.published = .ok p
  ended : runTasksBy events p tree found.tasks = some done
  same : outcome = ⟨done.tree, [found.message], done.generated, done.tally.result⟩

/-- A build fails before its tasks, and then it changes nothing, or it does them. -/
theorem buildsBy_or_failed (built : buildFromWith (runTasksBy events) tree settings now = some left) :
    (∃ messages failure, left = .failed tree messages failure) ∨
      ∃ found p done, BuildsBy events tree settings now left found p done := by
  rw [buildFromWith] at built
  split at built
  · exact .inl ⟨_, _, (Option.some_inj.1 built).symm⟩
  · rename_i found surveyed
    split at built
    · exact .inl ⟨_, _, (Option.some_inj.1 built).symm⟩
    · rename_i p planned
      obtain ⟨done, ended, outcome⟩ := Option.bind_eq_some_iff.1 built
      exact .inr ⟨found, p, done, surveyed, output_of_plan planned, planned, ended, (Option.some_inj.1 outcome).symm⟩

/-- A build that does not fail before builds from where it has cleaned. -/
theorem buildFromWith_or_failed {canceled : Bool} (built : buildBy events tree settings now canceled = some left) :
    (∃ failure, left = .failed tree [] failure) ∨
      buildFromWith (runTasksBy events) (settings.cleaned tree) settings now = some left := by
  rw [buildBy, buildWith] at built
  split at built
  · exact .inl ⟨_, (Option.some_inj.1 built).symm⟩
  · obtain cleaned | ⟨⟨failure, refused⟩, -⟩ := cleanOutput_spec tree settings
    · rw [cleaned] at built
      exact .inr built
    · rw [refused] at built
      exact .inl ⟨failure, (Option.some_inj.1 built).symm⟩

/-- Builds of one site that succeed under two schedules agree, except at contested places. -/
theorem builds_agree (built : buildFromWith (runTasksBy events) tree settings now = some left)
    (built' : buildFromWith (runTasksBy events') tree settings now = some right) (fine : left.result = .ok count)
    (fine' : right.result = .ok count') :
    count = count' ∧ left.generated.Perm right.generated ∧ left.messages = right.messages ∧
      ∀ place, left.tree.get? place = right.tree.get? place ∨
        Contested settings.build.output (Builds tree settings now) place := by
  obtain ⟨messages, failure, rfl⟩ | ⟨found, p, done, how⟩ := buildsBy_or_failed built
  · cases fine
  obtain ⟨messages, failure, rfl⟩ | ⟨found', p', done', how'⟩ := buildsBy_or_failed built'
  · cases fine'
  have builds : Builds tree settings now = (· ∈ found.tasks) := funext fun t => propext (builds_iff how.surveyed t)
  obtain rfl := Except.ok.inj (how.surveyed.symm.trans how'.surveyed)
  obtain rfl := Except.ok.inj (how.planned.symm.trans how'.planned)
  obtain rfl := how.same
  obtain rfl := how'.same
  obtain ⟨whole, rfl⟩ := Tally.result_eq_ok_iff.1 fine
  obtain ⟨whole', rfl⟩ := Tally.result_eq_ok_iff.1 fine'
  obtain ⟨finished, rfl⟩ := runTasksBy_eq_some_iff.1 how.ended
  obtain ⟨finished', rfl⟩ := runTasksBy_eq_some_iff.1 how'.ended
  obtain ⟨tally, generated⟩ := Workshop.done_of_finished ⟨events, rfl⟩ finished whole
  obtain ⟨tally', generated'⟩ := Workshop.done_of_finished ⟨events', rfl⟩ finished' whole'
  refine ⟨?_, generated.trans generated'.symm, rfl, fun place => ?_⟩
  · exact (congrArg Tally.count tally).trans (congrArg Tally.count tally').symm
  · rw [builds, ← how.output]
    exact get?_eq_or_contested (nodup_of_survey how.surveyed) how.ended how'.ended whole whole' place

/-- Where the tasks of a build are clear of each other, no place is contested. -/
theorem not_contested_of_builds (formed : tree.WellFormed) (direct : FilePath.IsDirect settings.build.output)
    (rootsDirect : ∀ root ∈ settings.build.content, FilePath.IsDirect root)
    (clear : ∀ found, survey tree settings (Reducer.ofTools Builtin.toolbox false) (settings.siteScope now) = .ok found →
      found.tasks.Pairwise fun t u => t.Clear settings.build.output u ∧ u.Clear settings.build.output t)
    (place : Place) : ¬ Contested settings.build.output (Builds tree settings now) place := by
  cases surveyed : survey tree settings (Reducer.ofTools Builtin.toolbox false) (settings.siteScope now) with
  | error failure =>
    have none : ∀ t, ¬ Builds tree settings now t := fun t ⟨found, known, _⟩ => nomatch surveyed.symm.trans known
    rintro (⟨t, builds, -⟩ | ⟨t, builds, -⟩) <;> exact none t builds
  | ok found =>
    have builds : Builds tree settings now = (· ∈ found.tasks) := funext fun t => propext (builds_iff surveyed t)
    obtain ⟨sources, collected, chosen⟩ := survey_chosen surveyed
    obtain ⟨settled, -⟩ := settled_of_chosen formed direct rootsDirect collected chosen
    exact builds ▸ not_contested_of_clear settled direct (clear found surveyed)

/-- Only tasks report files, and nothing changes where no task writes or needs a directory. -/
theorem changed_by_task (built : buildFromWith (runTasksBy events) tree settings now = some left) :
    (∀ made ∈ left.generated, ∃ t, Builds tree settings now t ∧ made = (t.kind, t.source.relative)) ∧
      ∀ place, left.tree.get? place ≠ tree.get? place → ∃ t, Builds tree settings now t ∧
        (t.Overwrites settings.build.output place ∨ t.Passes settings.build.output place) := by
  obtain ⟨messages, failure, rfl⟩ | ⟨found, p, done, how⟩ := buildsBy_or_failed built
  · exact ⟨nofun, fun _ changed => absurd rfl changed⟩
  obtain rfl := how.same
  obtain ⟨finished, rfl⟩ := runTasksBy_eq_some_iff.1 how.ended
  refine ⟨fun made mem => ?_, fun place changed => ?_⟩
  · obtain ⟨t, listed, same⟩ := Workshop.exists_task_of_generated ⟨events, rfl⟩ mem
    exact ⟨t, (builds_iff how.surveyed t).2 listed, same⟩
  · by_contra none
    have away : ∀ t ∈ found.tasks, ¬ t.Overwrites p.output place ∧ ¬ t.Passes p.output place := fun t listed =>
      not_or.1 fun touches => none ⟨t, (builds_iff how.surveyed t).2 listed, how.output ▸ touches⟩
    obtain same | ⟨-, -, t, listed, passes⟩ := Workshop.get?_of_reached ⟨events, rfl⟩ fun t listed => (away t listed).1
    · exact changed same
    · exact (away t listed).2 passes

end Folio
