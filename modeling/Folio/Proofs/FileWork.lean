import Folio.FileWork

/-!
# What work on files comes to

Work is done step by step: a step that fails ends it, and the tree stays as the step left
it.
-/

namespace Folio.FileWork

variable {α β : Type}

@[simp] theorem perform_fail (failure : Failure) (tree : FileTree) :
    (fail failure : FileWork α).perform tree = (.error failure, tree) := rfl

theorem perform_ofExcept (known : Except Failure α) (tree : FileTree) :
    (ofExcept known).perform tree = (known, tree) := by
  cases known <;> rfl

@[simp] theorem perform_look (view : FileTree → α) (tree : FileTree) :
    (look view).perform tree = (.ok (view tree), tree) := rfl

@[simp] theorem perform_alter (change : FileTree → FileTree) (tree : FileTree) :
    (alter change).perform tree = (.ok (), change tree) := rfl

theorem perform_bind (work : FileWork α) (more : α → FileWork β) (tree : FileTree) :
    (work >>= more).perform tree =
      match work.perform tree with
      | (.ok a, tree) => (more a).perform tree
      | (.error failure, tree) => (.error failure, tree) := by
  simp only [perform, ExceptT.run_bind, StateT.run_bind]
  rcases StateT.run (ExceptT.run work) tree with ⟨_ | _, _⟩ <;> rfl

theorem perform_tryCatch (work : FileWork α) (rescue : Failure → FileWork α) (tree : FileTree) :
    (tryCatch work rescue).perform tree =
      match work.perform tree with
      | (.ok a, tree) => (.ok a, tree)
      | (.error failure, tree) => (rescue failure).perform tree := by
  simp only [perform, tryCatch, tryCatchThe, MonadExceptOf.tryCatch, ExceptT.tryCatch, ExceptT.run, ExceptT.mk,
    StateT.run_bind]
  rcases StateT.run work tree with ⟨_ | _, _⟩ <;> rfl

theorem perform_attempt (change : FileTree → Except FileFault FileTree) (refused : FileFault → Failure)
    (tree : FileTree) :
    (attempt change refused).perform tree =
      match change tree with
      | .ok changed => (.ok (), changed)
      | .error fault => (.error (refused fault), tree) := by
  rw [attempt, perform_bind, perform_look]
  dsimp only
  cases change tree <;> rfl

theorem perform_alter_bind (change : FileTree → FileTree) (more : Unit → FileWork β) (tree : FileTree) :
    (alter change >>= more).perform tree = (more ()).perform (change tree) := by
  rw [perform_bind, perform_alter]

/-- A failure is said to come from the activity. -/
theorem perform_within (activity : Activity) (work : FileWork α) (tree : FileTree) :
    (within activity work).perform tree =
      ((work.perform tree).1.mapError (Failure.within activity), (work.perform tree).2) := by
  rw [within, perform_tryCatch]
  rcases work.perform tree with ⟨_ | _, _⟩ <;> rfl

/-! ## Success -/

variable {tree after : FileTree} {a : α} {b : β}

theorem perform_bind_eq_ok {work : FileWork α} {more : α → FileWork β} :
    (work >>= more).perform tree = (.ok b, after) ↔
      ∃ a between, work.perform tree = (.ok a, between) ∧ (more a).perform between = (.ok b, after) := by
  rw [perform_bind]
  rcases work.perform tree with ⟨_ | a, between⟩
  · simp
  · constructor
    · exact fun done => ⟨a, between, rfl, done⟩
    · rintro ⟨_, _, ⟨⟩, done⟩
      exact done

theorem perform_within_eq_ok {activity : Activity} {work : FileWork α} :
    (within activity work).perform tree = (.ok a, after) ↔ work.perform tree = (.ok a, after) := by
  rw [perform_within]
  rcases work.perform tree with ⟨_ | a, between⟩
  · constructor <;> rintro ⟨⟩
  · exact Iff.rfl

end Folio.FileWork
