import Folio.Proofs.Build.Frame

/-!
# Writing once more

A file that has been written can be written again, and nothing changes.  That stays so while other
files are written, as long as none is in the way of another.  So tasks that have all been done can be
done again, and leave everything as it is.

Main statement: `Runs.again`.
-/

namespace Folio

open FilePath (namesOf)

namespace Output

variable {view : Place → Option FileNode} {o p : Output} {place other : Place}

/-! ## Files -/

/-- The file is there, and writing it again changes nothing. -/
structure Kept (view : Place → Option FileNode) (o : Output) : Prop where
  ready : Ready view o
  unchanged : after view o = view

theorem after_of_leads (leads : place <+: o.directory) : after view o place = some .directory := by
  rw [after_of_away (fun here => o.target_not_above (here ▸ leads)) fun below =>
    o.temporary_not_above (below.trans leads), if_pos leads]

theorem kept_after (ready : Ready view o) : Kept (after view o) o := by
  refine ⟨⟨after_of_leads List.nil_prefix, fun place leads => .inr (after_of_leads leads), ready.short, ready.shortName,
    ready.shortHidden, ?_, ?_⟩, funext fun place => ?_⟩
  · simp [after]
  · simp [after, o.temporary_ne_target]
  · by_cases here : place = o.target
    · simp [after, here]
    by_cases below : o.temporary <+: place
    · simp [after, here, below]
    rw [after_of_away here below, after_of_away here below]
    split <;> rfl

/-- Another file does not change that. -/
theorem Kept.after (kept : Kept view o) (apart : Apart o p) (ready : Ready view p) : Kept (after view p) o := by
  -- The two can be written in either order, and to write the first one changes nothing before the second.
  obtain ⟨-, later, same⟩ := swap apart kept.ready (kept.unchanged.symm ▸ ready)
  exact ⟨later, by rw [← same, kept.unchanged]⟩

/-! ## Directories -/

def Nested (view : Place → Option FileNode) : Prop :=
  ∀ place name, view (place ++ [name]) ≠ none → view place = some .directory

/-- Nothing lies below what is no directory. -/
theorem Nested.eq_none (nested : Nested view) (free : view place ≠ some .directory) (below : place <+: other)
    (apart : other ≠ place) : view other = none := by
  obtain ⟨names, rfl⟩ := below
  by_contra present
  have directory : ∀ names : List String, names ≠ [] → view (place ++ names) ≠ none → view place = some .directory := by
    intro names
    induction names using List.reverseRecOn with
    | nil => exact fun empty => absurd rfl empty
    | append_singleton front name ih =>
      intro _ found
      rw [← List.append_assoc] at found
      have above := nested _ _ found
      by_cases last : front = []
      · simpa [last] using above
      · exact ih last (by rw [above]; exact nofun)
  exact free (directory names (by simpa using apart) present)

theorem Nested.after (nested : Nested view) (ready : Ready view o) : Nested (after view o) := by
  intro place name present
  by_cases here : place ++ [name] = o.target
  · obtain ⟨rfl, -⟩ := List.append_inj' here rfl
    exact after_of_leads List.prefix_rfl
  by_cases below : o.temporary <+: place ++ [name]
  · simp [Output.after, here, below] at present
  rw [after_of_away here below] at present
  split at present
  · rename_i leads
    exact after_of_leads ((List.prefix_append place [name]).trans leads)
  · have directory := nested place name present
    rw [after_of_away (fun same => ready.target (same ▸ directory)) fun leads =>
      below (leads.trans (List.prefix_append ..)), directory]
    simp

/-- Directories stay where they are. -/
theorem Nested.directory_after (nested : Nested view) (ready : Ready view o) (directory : view place = some .directory) :
    Output.after view o place = some .directory := by
  have notBelow : ¬ o.temporary <+: place := by
    intro below
    by_cases here : place = o.temporary
    · exact ready.temporary (here ▸ directory)
    · rw [nested.eq_none ready.temporary below here] at directory
      cases directory
  rw [after_of_away (fun here => ready.target (here ▸ directory)) notBelow, directory]
  simp

end Output

open Output (Kept Nested)

variable {p : Plan} {t : BuildTask} {tasks : List BuildTask} {a b c : FileTree} {o : Output}

/-! ## Runs -/

theorem Runs.nested (placed : ∀ t ∈ tasks, t.Placed p.output) (run : Runs p a tasks b) (nested : Nested a.get?) :
    Nested b.get? ∧ ∀ place, a.get? place = some .directory → b.get? place = some .directory := by
  induction run with
  | nil => exact ⟨nested, fun _ => id⟩
  | cons done rest ih =>
    obtain ⟨first, others⟩ := List.forall_mem_cons.1 placed
    obtain ⟨bytes, -, ready, written⟩ := done.ready first
    obtain ⟨after, still⟩ := ih others (written ▸ nested.after ready)
    exact ⟨after, fun place directory => still place (by rw [written, nested.directory_after ready directory])⟩

/-- A file that has been written stays so through a run of tasks that are out of its way. -/
theorem Runs.keeps (placed : ∀ t ∈ tasks, t.Placed p.output) (run : Runs p a tasks b) (kept : Kept a.get? o)
    (apart : ∀ t ∈ tasks, ∀ bytes, o.Apart (t.outputOf p.output bytes)) : Kept b.get? o := by
  induction run with
  | nil => exact kept
  | cons done rest ih =>
    obtain ⟨first, others⟩ := List.forall_mem_cons.1 placed
    obtain ⟨bytes, -, ready, written⟩ := done.ready first
    rw [List.forall_mem_cons] at apart
    exact ih others (written ▸ kept.after (apart.1 bytes) ready) apart.2

/-- The task would make the file that is there already. -/
def BuildTask.Done (p : Plan) (tree : FileTree) (t : BuildTask) : Prop :=
  ∃ bytes, t.productOf p (Reducer.ofTools Builtin.toolbox false) (tree.readFile [] t.source.physical) = .ok bytes ∧
    Kept tree.get? (t.outputOf p.output bytes)

theorem BuildTask.Done.congr (done : t.Done p a) (same : b.get? = a.get?) : t.Done p b := by
  obtain ⟨bytes, made, kept⟩ := done
  exact ⟨bytes, by rw [FileTree.readFile_congr same, made], same ▸ kept⟩

/-- The source of a task is read alike before and after a run that does not touch it. -/
theorem Runs.readFile {u : BuildTask} (run : Runs p a tasks b) (sourced : u.Sourced a)
    (spared : ∀ t ∈ tasks, ¬ t.Touches p.output (namesOf u.source.physical)) :
    u.Sourced b ∧ b.readFile [] u.source.physical = a.readFile [] u.source.physical := by
  obtain ⟨bytes, lies⟩ := sourced
  obtain ⟨-, rfl⟩ := runTasks_iff.2 run
  have still := lies_runTasks lies spared
  exact ⟨⟨bytes, still⟩, by rw [still.readFile, lies.readFile]⟩

section Again

variable (placed : ∀ t ∈ tasks, t.Placed p.output)

include placed

/-- After a run all its tasks are done, if they spare each other and all sources. -/
theorem Runs.done (spares : tasks.Pairwise fun t u => t.Spares p.output u ∧ u.Spares p.output t)
    (sourced : ∀ t ∈ tasks, t.Sourced a)
    (spared : ∀ t ∈ tasks, ∀ u ∈ tasks, ¬ t.Touches p.output (namesOf u.source.physical))
    (run : Runs p a tasks b) : ∀ t ∈ tasks, t.Done p b := by
  induction run with
  | nil => exact nofun
  | @cons a between b t tasks done rest ih =>
    obtain ⟨placed, others⟩ := List.forall_mem_cons.1 placed
    obtain ⟨spares, among⟩ := List.pairwise_cons.1 spares
    have single : Runs p a [t] between := .cons done (.nil between)
    refine List.forall_mem_cons.2 ⟨?_, ih others among (fun u mem => ?_) fun u mem v mem' =>
      spared u (List.mem_cons_of_mem _ mem) v (List.mem_cons_of_mem _ mem')⟩
    · obtain ⟨bytes, made, ready, written⟩ := done.ready placed
      have kept : Kept between.get? (t.outputOf p.output bytes) := written ▸ Output.kept_after ready
      have whole : Runs p a (t :: tasks) b := .cons done rest
      refine ⟨bytes, ?_, rest.keeps others kept fun u mem bytes => ?_⟩
      · rw [(whole.readFile (sourced t List.mem_cons_self) fun u mem => spared u mem t List.mem_cons_self).2, made]
      · exact (spares u mem).1.apart placed (others u mem) (spares u mem).2
    · refine (single.readFile (sourced u (List.mem_cons_of_mem _ mem)) fun v first => ?_).1
      cases List.mem_singleton.1 first
      exact spared t List.mem_cons_self u (List.mem_cons_of_mem _ mem)

/-- What is done already can be done again, and leaves everything as it is. -/
theorem exists_runs_of_done (done : ∀ t ∈ tasks, t.Done p a) : ∃ b, Runs p a tasks b ∧ b.get? = a.get? := by
  induction tasks generalizing a with
  | nil => exact ⟨a, .nil a, rfl⟩
  | cons t tasks ih =>
    obtain ⟨placed, others⟩ := List.forall_mem_cons.1 placed
    obtain ⟨⟨bytes, made, kept⟩, rest⟩ := List.forall_mem_cons.1 done
    obtain ⟨between, first, written⟩ := exists_does placed made kept.ready
    have same : between.get? = a.get? := written.trans kept.unchanged
    obtain ⟨b, run, after⟩ := ih others fun u mem => (rest u mem).congr same
    exact ⟨b, .cons first run, after.trans same⟩

/-- Tasks that could all be done can all be done again, and nothing changes. -/
theorem Runs.again (spares : tasks.Pairwise fun t u => t.Spares p.output u ∧ u.Spares p.output t)
    (sourced : ∀ t ∈ tasks, t.Sourced a)
    (spared : ∀ t ∈ tasks, ∀ u ∈ tasks, ¬ t.Touches p.output (namesOf u.source.physical))
    (run : Runs p a tasks b) : ∃ c, Runs p b tasks c ∧ c.get? = b.get? :=
  exists_runs_of_done placed (run.done placed spares sourced spared)

end Again

end Folio
