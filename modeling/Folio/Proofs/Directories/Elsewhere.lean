import Folio.Proofs.Directories.Outcome

/-!
# What a call leaves alone

A call that is polled or dropped changes nothing that belongs to other directories.
-/

namespace Folio.Directories

variable {ds ds' : Directories} {owner : ℕ → ℕ} {i k : ℕ} {c : DirectoryCall} {a : Attempt}
variable {p : FilePath.Parts} {cancelFirst : Bool}

/-- Nothing has changed for the directory `p`. -/
structure Elsewhere (p : FilePath.Parts) (ds ds₁ : Directories) : Prop where
  length : ds₁.calls.length = ds.calls.length
  calls : ∀ (i : ℕ) (c : DirectoryCall), ds₁.calls[i]? = some c → ∃ d : DirectoryCall, ds.calls[i]? = some d ∧
    c.path = d.path ∧ c.token = d.token ∧ (FilePath.parts d.path = p → c.phase = d.phase)
  attempts : ∀ (k : ℕ) (a : Attempt), FilePath.parts a.path = p →
    (ds₁.attempts[k]? = some a ↔ ds.attempts[k]? = some a)
  entry : ds₁.entries.lookup p = ds.entries.lookup p
  canceled : ds₁.canceled = ds.canceled

theorem Elsewhere.refl (p : FilePath.Parts) (ds : Directories) : Elsewhere p ds ds :=
  ⟨rfl, fun _ c call => ⟨c, call, rfl, rfl, fun _ => rfl⟩, fun _ _ _ => .rfl, rfl, rfl⟩

theorem Elsewhere.trans {ds₁ ds₂ : Directories} (first : Elsewhere p ds ds₁) (second : Elsewhere p ds₁ ds₂) :
    Elsewhere p ds ds₂ where
  length := second.length.trans first.length
  calls i c call := by
    obtain ⟨d, there, path, token, phase⟩ := second.calls i c call
    obtain ⟨e, found, path', token', phase'⟩ := first.calls i d there
    exact ⟨e, found, path.trans path', token.trans token', fun here =>
      (phase (by rw [path', here])).trans (phase' here)⟩
  attempts k a here := (second.attempts k a here).trans (first.attempts k a here)
  entry := second.entry.trans first.entry
  canceled := second.canceled.trans first.canceled

theorem elsewhere_setPhase (ds : Directories) (call : ds.calls[i]? = some c) (there : FilePath.parts c.path ≠ p) (phase : CallPhase) :
    Elsewhere p ds (ds.setPhase i phase) where
  length := by simp [Directories.setPhase]
  calls j d found := by
    by_cases same : j = i
    · subst same
      obtain ⟨d, before, rfl⟩ := exists_of_setPhase found
      rw [call] at before
      obtain rfl := Option.some_inj.1 before
      exact ⟨c, call, rfl, rfl, fun here => absurd here there⟩
    · rw [calls_setPhase_other same] at found
      exact ⟨d, found, rfl, rfl, fun _ => rfl⟩
  attempts _ _ _ := .rfl
  entry := rfl
  canceled := rfl

theorem elsewhere_setAttempt (attempt : ds.attempts[k]? = some a) (there : FilePath.parts a.path ≠ p)
    (state : AttemptState) : Elsewhere p ds (ds.setAttempt k state) where
  length := rfl
  calls _ c call := ⟨c, call, rfl, rfl, fun _ => rfl⟩
  attempts m b here := by
    by_cases same : m = k
    · subst same
      rw [attempts_setAttempt_self attempt, attempt]
      constructor
      · intro equal
        obtain rfl := Option.some_inj.1 equal
        exact absurd here there
      · intro equal
        obtain rfl := Option.some_inj.1 equal
        exact absurd here there
    · rw [attempts_setAttempt_other same]
  entry := rfl
  canceled := rfl

theorem elsewhere_abandon (attempt : ds.attempts[k]? = some a) (there : FilePath.parts a.path ≠ p) {path : String}
    (same : a.path = path) : Elsewhere p ds (ds.abandon path k) :=
  { elsewhere_setAttempt attempt there .abandoned with
    entry := by
      subst same
      simp only [Directories.abandon, lookup_filter_ne, if_neg (Ne.symm there)] }

theorem elsewhere_begin (call : ds.calls[i]? = some c) (there : FilePath.parts c.path ≠ p) :
    Elsewhere p ds (ds.begin i c.path) := by
  let added : Directories :=
    { ds with
      attempts := ds.attempts ++ [⟨c.path, .running⟩]
      entries := (FilePath.parts c.path, ds.attempts.length) :: ds.entries }
  have adds : Elsewhere p ds added := by
    refine ⟨rfl, fun _ c call => ⟨c, call, rfl, rfl, fun _ => rfl⟩, fun k a here => ?_, ?_, rfl⟩
    · refine getElem?_concat_eq_some.trans (or_iff_left ?_)
      rintro ⟨-, rfl⟩
      exact there here
    · show List.lookup p ((FilePath.parts c.path, ds.attempts.length) :: ds.entries) = _
      rw [List.lookup_cons, beq_eq_false_iff_ne.2 (Ne.symm there)]
  exact adds.trans (elsewhere_setPhase added call there _)

/-- A move of a call that has not ended changes nothing for other directories. -/
theorem Sound.elsewhere_advance (sound : Sound ds owner) (call : ds.calls[i]? = some c)
    (there : FilePath.parts c.path ≠ p) (cancelFirst : Bool) : Elsewhere p ds (ds.advance i c c.phase cancelFirst) := by
  have advances := advances_advance ds i c c.phase cancelFirst
  generalize ds.advance i c c.phase cancelFirst = ds' at advances
  generalize now : c.phase = phase at advances
  cases advances with
  | stays => exact .refl p ds
  | @abandons k =>
    obtain ⟨a, attempt, path, -⟩ := sound.creating_attempt call now
    exact (elsewhere_abandon attempt (by rwa [path]) path).trans
      (elsewhere_setPhase (ds.abandon c.path k) call there _)
  | @completes k =>
    obtain ⟨a, attempt, path, -⟩ := sound.creating_attempt call now
    exact (elsewhere_setAttempt attempt (by rwa [path]) _).trans
      (elsewhere_setPhase (ds.setAttempt k .completed) call there _)
  | leaves => exact elsewhere_setPhase ds call there _
  | finds => exact elsewhere_setPhase ds call there _
  | released => exact elsewhere_setPhase ds call there _

theorem Sound.elsewhere_poll (sound : Sound ds owner) (call : ds.calls[i]? = some c)
    (there : FilePath.parts c.path ≠ p) : Elsewhere p ds (ds.poll i cancelFirst) := by
  obtain ⟨ds₁, d, starts, polled⟩ := exists_starts call cancelFirst
  have started := (sound.moves (starts.moves call)).2
  have found := starts.call call
  rw [polled]
  cases starts with
  | goesOn => exact sound.elsewhere_advance call there cancelFirst
  | waits => exact (elsewhere_setPhase ds call there _).trans (started.elsewhere_advance found there cancelFirst)
  | begins => exact (elsewhere_begin call there).trans (started.elsewhere_advance found there cancelFirst)

theorem Sound.elsewhere_drop (sound : Sound ds owner) (call : ds.calls[i]? = some c)
    (there : FilePath.parts c.path ≠ p) : Elsewhere p ds (ds.drop i) := by
  simp only [drop, call]
  cases phase : c.phase with
  | ended o => exact .refl p ds
  | fresh => exact elsewhere_setPhase ds call there _
  | waiting k => exact elsewhere_setPhase ds call there _
  | creating k =>
    obtain ⟨a, attempt, path, -⟩ := sound.creating_attempt call phase
    exact (elsewhere_abandon attempt (by rwa [path]) path).trans
      (elsewhere_setPhase (ds.abandon c.path k) call there _)

end Folio.Directories
