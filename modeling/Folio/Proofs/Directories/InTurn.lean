import Folio.Proofs.Directories.Sound

/-!
# Calls one after the other

Where no creation is under way, a call that has not been polled comes to its end without the others: it
finds that its directory was made before, or its creation comes back, or it is canceled at once and leaves
no attempt behind that counts.

Main statements: `ends_of_canceled`, `ends_of_entry`, `ends_of_new`.
-/

namespace Folio.Directories

variable {ds : Directories} {owner : ℕ → ℕ} {c : DirectoryCall} {i k : ℕ}

def Quiet (ds : Directories) : Prop :=
  ∀ (k : ℕ) (a : Attempt), ds.attempts[k]? = some a → a.state = .completed ∨ a.state = .abandoned

theorem Quiet.of_concat {ds' : Directories} {path : String} {state : AttemptState} (quiet : ds.Quiet)
    (attempts : ds'.attempts = ds.attempts ++ [⟨path, state⟩]) (past : state = .completed ∨ state = .abandoned) :
    ds'.Quiet := by
  intro k a found
  rw [attempts] at found
  obtain old | ⟨-, rfl⟩ := getElem?_concat_eq_some.1 found
  · exact quiet k a old
  · exact past

/-- The attempt that was added last comes to another state. -/
theorem attempts_setAttempt_last {path : String} {before : AttemptState} {attempts : List Attempt}
    (last : ds.attempts = attempts ++ [⟨path, before⟩]) (state : AttemptState) :
    (ds.setAttempt attempts.length state).attempts = attempts ++ [⟨path, state⟩] := by
  show ds.attempts.modify attempts.length _ = _
  rw [last]
  exact List.modifyTailIdx_add _ 0 attempts [⟨path, before⟩]

theorem attemptState_last {path : String} {state : AttemptState} {attempts : List Attempt}
    (last : ds.attempts = attempts ++ [⟨path, state⟩]) : ds.attemptState attempts.length = state := by
  refine attemptState_eq (a := ⟨path, state⟩) ?_
  rw [last, getElem?_concat_eq_some]
  exact .inr ⟨rfl, rfl⟩

theorem newCall (ds : Directories) (path token : String) :
    (ds.step (.call path token)).calls[ds.calls.length]? = some ⟨path, token, .fresh⟩ :=
  getElem?_concat_eq_some.2 (.inr ⟨rfl, rfl⟩)

/-- A call that is canceled when it is polled for the first time ends at once. -/
theorem ends_of_canceled (quiet : ds.Quiet) (call : ds.calls[i]? = some c) (fresh : c.phase = .fresh)
    (canceled : ds.isCanceled c.token = true) :
    (ds.poll i true).calls[i]? = some { c with phase := .ended .canceled } ∧ (ds.poll i true).Quiet ∧
      (ds.poll i true).canceled = ds.canceled := by
  obtain ⟨ds₁, d, starts, polled⟩ := exists_starts call true
  have started := starts.call call
  rw [polled]
  cases starts with
  | goesOn begun => exact absurd fresh begun
  | @waits k _ counts =>
    have ends : (ds.setPhase i (.waiting k)).advance i { c with phase := .waiting k } (.waiting k) true =
        (ds.setPhase i (.waiting k)).setPhase i (.ended .canceled) :=
      if_pos (by simpa [setPhase, isCanceled] using canceled)
    rw [ends]
    exact ⟨calls_setPhase_self _ started _, quiet, rfl⟩
  | begins _ free =>
    have ends : (ds.begin i c.path).advance i { c with phase := .creating ds.attempts.length }
        (.creating ds.attempts.length) true =
          ((ds.begin i c.path).abandon c.path ds.attempts.length).setPhase i (.ended .canceled) :=
      if_pos (by simpa [begin, setPhase, isCanceled] using canceled)
    rw [ends]
    have attempts : ((ds.begin i c.path).abandon c.path ds.attempts.length).attempts =
        ds.attempts ++ [⟨c.path, .abandoned⟩] := attempts_setAttempt_last (attempts_begin ds i c.path) .abandoned
    exact ⟨calls_setPhase_self ⟨_, _, _, _⟩ started _, quiet.of_concat attempts (.inr rfl), rfl⟩

/-- A call whose directory was made before ends at once, too. -/
theorem ends_of_entry (sound : Sound ds owner) (quiet : ds.Quiet) (call : ds.calls[i]? = some c)
    (fresh : c.phase = .fresh) (goesOn : ds.isCanceled c.token = false) (counts : ds.entry? c.path = some k) :
    (ds.poll i true).calls[i]? = some { c with phase := .ended .done } ∧ (ds.poll i true).attempts = ds.attempts ∧
      (ds.poll i true).canceled = ds.canceled ∧ ∃ a : Attempt, ds.attempts[k]? = some a ∧ a.state = .completed ∧
        FilePath.parts a.path = FilePath.parts c.path := by
  obtain ⟨a, attempt, same, counted⟩ := (sound.entry _ k).1 counts
  have completed : a.state = .completed := (quiet k a attempt).resolve_right counted
  have ends : ds.poll i true = (ds.setPhase i (.waiting k)).setPhase i (.ended .done) := by
    rw [poll_of_waits call fresh counts, poll_eq_advance (calls_setPhase_self ds call _) (by simp)]
    refine (if_neg ?_).trans (if_pos ?_)
    · simpa [setPhase, isCanceled] using goesOn
    · exact beq_iff_eq.2 ((attemptState_eq attempt).trans completed)
  rw [ends]
  exact ⟨calls_setPhase_self _ (calls_setPhase_self ds call _) _, rfl, rfl, a, attempt, completed, same⟩

/-- A call begins an attempt where none counts. -/
theorem poll_of_new (call : ds.calls[i]? = some c) (fresh : c.phase = .fresh) (goesOn : ds.isCanceled c.token = false)
    (free : ds.entry? c.path = none) : ds.poll i true = ds.begin i c.path := by
  rw [poll_of_begins call fresh free, poll_eq_advance (calls_begin_self call _) (by simp)]
  refine (if_neg ?_).trans (if_neg ?_)
  · rw [attemptState_last (attempts_begin ds i c.path)]
    simpa [begin, setPhase, isCanceled] using goesOn
  · rw [attemptState_last (attempts_begin ds i c.path)]
    decide

/-- When its creation has come back, the call is at its end. -/
theorem ends_of_new (quiet : ds.Quiet) (call : ds.calls[i]? = some c) (fresh : c.phase = .fresh)
    (goesOn : ds.isCanceled c.token = false) (free : ds.entry? c.path = none) :
    let ds' := ((ds.poll i true).returnCreations c.path).poll i true
    ds'.calls[i]? = some { c with phase := .ended .done } ∧ ds'.attempts = ds.attempts ++ [⟨c.path, .completed⟩] ∧
      ds'.canceled = ds.canceled := by
  rw [poll_of_new call fresh goesOn free]
  have creating : ((ds.begin i c.path).returnCreations c.path).calls[i]? =
      some { c with phase := .creating ds.attempts.length } := calls_begin_self call c.path
  have attempts : ((ds.begin i c.path).returnCreations c.path).attempts = ds.attempts ++ [⟨c.path, .returned⟩] := by
    refine List.map_append.trans (congrArg₂ _ ?_ (by simp))
    refine (List.map_congr_left fun a mem => if_neg ?_).trans (List.map_id' _)
    obtain ⟨k, found⟩ := List.mem_iff_getElem?.1 mem
    obtain completed | abandoned := quiet k a found
    · simp [completed]
    · simp [abandoned]
  have ends : ((ds.begin i c.path).returnCreations c.path).poll i true =
      (((ds.begin i c.path).returnCreations c.path).setAttempt ds.attempts.length .completed).setPhase i (.ended .done) := by
    refine (poll_eq_advance creating (by simp) true).trans ((if_neg ?_).trans (if_pos ?_))
    · rw [attemptState_last attempts]
      simpa [begin, setPhase, returnCreations, isCanceled] using goesOn
    · rw [attemptState_last attempts]
      rfl
  intro ds'
  rw [show ds' = _ from ends]
  exact ⟨calls_setPhase_self ⟨_, _, _, _⟩ creating _, attempts_setAttempt_last attempts _, rfl⟩

end Folio.Directories
