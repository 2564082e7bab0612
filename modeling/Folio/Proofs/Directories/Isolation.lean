import Folio.Proofs.Directories.Alongside

/-!
# What a call can rely on

A call that waits for a directory can be dropped without a change to any other call.  A
token can be canceled without a change to any call with another token, provided that no
call with this token creates the directory: the calls that wait for one that does are
canceled with it.

Main statement: `waiter_promises`.
-/

namespace Folio.Directories

variable {ds : Directories} {owner : ℕ → ℕ} {i j k : ℕ} {c : DirectoryCall}

theorem Alongside.refl (silent : ℕ → String → Prop) (p : FilePath.Parts) (ds : Directories) :
    Alongside silent p id ds ds where
  length := rfl
  calls i c c' call call' := by
    rw [call] at call'
    obtain rfl := Option.some_inj.1 call'
    exact ⟨rfl, rfl, fun _ => .inl (CallPhase.rename_id _).symm⟩
  attempts _ _ attempt _ := attempt
  apart _ _ _ _ _ _ _ _ := id
  entry := Option.map_id_apply.symm
  canceled _ := .inl rfl

theorem outcome?_eq_none (call : ds.calls[i]? = none) : ds.outcome? i = none := by
  simp [outcome?, call]

/-- Whether a waiting call is dropped makes no difference to any other call. -/
theorem Sound.outcome?_drop (sound : Sound ds owner) (call : ds.calls[i]? = some c) (waiting : c.phase = .waiting k)
    (other : j ≠ i) (more : List DirectoryEvent) :
    ((ds.drop i).run more).outcome? j = (ds.run more).outcome? j := by
  -- Only the dropped call is silent, and a waiting call may have ended in the other state.
  have along (p : FilePath.Parts) : Alongside (fun m _ => m = i) p id ds (ds.drop i) := by
    have dropped : ds.drop i = ds.setPhase i (.ended .dropped) := by simp only [drop, call, waiting]
    have waits : ds.setPhase i (.waiting k) = ds := by rw [← waiting, setPhase_self call]
    have moved := (Alongside.refl (fun m _ => m = i) p ds).setPhase (i := i)
      (.inr ⟨fun _ _ => rfl, .waiting k, .ended .dropped⟩)
    rwa [waits, ← dropped] at moved
  have spared (p : FilePath.Parts) (ds : Directories) : Spared (fun m _ => m = i) p ds :=
    fun _ _ _ _ _ _ => ⟨i + 1, by omega⟩
  have run (p : FilePath.Parts) := (along p).run sound (sound.step (.drop i)) more fun _ _ => spared p _
  cases found : (ds.run more).calls[j]? with
  | none =>
    obtain ⟨g, after⟩ := run ⟨false, []⟩
    rw [outcome?_eq_none found, outcome?_eq_none (after.no_call found)]
  | some d =>
    obtain ⟨g, after⟩ := run (FilePath.parts d.path)
    exact after.outcome? found rfl other

/-- Whether a token is canceled makes no difference to a call with another token, as long
as no call with the token creates the directory of that call. -/
theorem Sound.outcome?_cancel (sound : Sound ds owner) (token : String) (more : List DirectoryEvent)
    (call : (ds.run more).calls[j]? = some c) (other : c.token ≠ token)
    (spared : ∀ before, before <+: more → ∀ (i : ℕ) (d : DirectoryCall) (k : ℕ),
      (ds.run before).calls[i]? = some d → FilePath.parts d.path = FilePath.parts c.path →
      d.phase = .creating k → d.token ≠ token) :
    ((ds.step (.cancel token)).run more).outcome? j = (ds.run more).outcome? j := by
  -- All calls with the token are silent, whatever their number.
  have along : Alongside (fun _ t => t = token) (FilePath.parts c.path) id ds (ds.step (.cancel token)) := by
    have canceled : ∀ t, (ds.step (.cancel token)).isCanceled t = ds.isCanceled t ∨
        ds.isCanceled t = false ∧ ∀ _ : ℕ, t = token := by
      intro t
      rw [isCanceled_step]
      by_cases same : t = token
      · cases ds.isCanceled t with
        | true => exact .inl (Bool.or_true _)
        | false => exact .inr ⟨rfl, fun _ => same⟩
      · exact .inl (by rw [beq_eq_false_iff_ne.2 same, Bool.false_or])
    rw [step_cancel] at canceled ⊢
    exact { Alongside.refl (fun _ t => t = token) (FilePath.parts c.path) ds with canceled }
  obtain ⟨g, after⟩ := along.run sound (sound.step (.cancel token)) more fun before initial i d k found here creating =>
    ⟨0, spared before initial i d k found here creating⟩
  exact after.outcome? call rfl other

/-- Along every run, a call ends well only after an attempt for its directory completed; it
is canceled only if its token is or if it waited for an attempt whose own call was canceled
or dropped before the attempt completed.  Dropping a waiting call changes the outcome of no
other call; neither does canceling a token, except for calls with this token and for calls
whose directory a call with this token is creating at that time or later.  Where no poll
moves a call, every waiting call has a creating call, whose attempt counts for its directory. -/
theorem waiter_promises (events : List DirectoryEvent) :
    (∀ (i : ℕ) (c : DirectoryCall), (empty.run events).calls[i]? = some c → c.phase = .ended .done →
      ∃ (k : ℕ) (a : Attempt), (empty.run events).attempts[k]? = some a ∧
        FilePath.parts a.path = FilePath.parts c.path ∧ a.state = .completed) ∧
    (∀ (i : ℕ) (c : DirectoryCall), (empty.run events).calls[i]? = some c → c.phase = .ended .canceled →
      (empty.run events).isCanceled c.token = true ∨
      ∃ (k m : ℕ) (d : DirectoryCall), WaitedFor events i k ∧ BegunBy events m k ∧
        (empty.run events).attemptState k = .abandoned ∧ (empty.run events).calls[m]? = some d ∧
        FilePath.parts d.path = FilePath.parts c.path ∧
        (d.phase = .ended .canceled ∧ (empty.run events).isCanceled d.token = true ∨ d.phase = .ended .dropped)) ∧
    (∀ (i k : ℕ) (c : DirectoryCall), (empty.run events).calls[i]? = some c → c.phase = .waiting k →
      ∀ (more : List DirectoryEvent) (j : ℕ), j ≠ i →
        (empty.run (events ++ .drop i :: more)).outcome? j = (empty.run (events ++ more)).outcome? j) ∧
    (∀ (token : String) (more : List DirectoryEvent) (j : ℕ) (c : DirectoryCall),
      (empty.run (events ++ more)).calls[j]? = some c → c.token ≠ token →
      (∀ before, before <+: more → ∀ (i : ℕ) (d : DirectoryCall) (k : ℕ),
        (empty.run (events ++ before)).calls[i]? = some d → FilePath.parts d.path = FilePath.parts c.path →
        d.phase = .creating k → d.token ≠ token) →
      (empty.run (events ++ .cancel token :: more)).outcome? j = (empty.run (events ++ more)).outcome? j) ∧
    ((∀ i cancelFirst, (empty.run events).poll i cancelFirst = empty.run events) →
      ∀ (i k : ℕ) (c : DirectoryCall), (empty.run events).calls[i]? = some c → c.phase = .waiting k →
        ∃ (m : ℕ) (d : DirectoryCall), (empty.run events).calls[m]? = some d ∧ d.phase = .creating k ∧
          FilePath.parts d.path = FilePath.parts c.path ∧ entry? (empty.run events) c.path = some k) := by
  obtain ⟨owner, sound, begun⟩ := sound_run events
  refine ⟨sound.finished, fun i c call canceled => ?_, fun i k c call waiting more j other => ?_,
    fun token more j c call other spared => ?_, fun quiet i k c call waiting => sound.creator_of_quiet quiet call waiting⟩
  · obtain reason | ⟨k, a, waited, attempt, samePath, abandoned⟩ := canceled_run events call canceled
    · exact .inl reason
    · obtain ⟨d, creator, path, accounts⟩ := sound.owned k a attempt
      rw [abandoned] at accounts
      exact .inr ⟨k, owner k, d, waited, begun k (getElem?_lt attempt), (attemptState_eq attempt).trans abandoned,
        creator, by rw [path, samePath], accounts⟩
  · rw [run_append, run_append, run_cons]
    exact sound.outcome?_drop call waiting other more
  · simp only [run_append] at call spared ⊢
    rw [run_cons]
    exact sound.outcome?_cancel token more call other spared

/-- Dropping the second of two calls for a directory leaves the first as it is. -/
theorem waiter_promises_drop :
    (empty.run ([.call "a" "left", .call "a/" "right", .poll 0 false, .poll 1 false] ++
      .drop 1 :: [.creationReturns "a", .poll 0 false])).outcome? 0 =
    (empty.run ([.call "a" "left", .call "a/" "right", .poll 0 false, .poll 1 false] ++
      [.creationReturns "a", .poll 0 false])).outcome? 0 :=
  (waiter_promises [.call "a" "left", .call "a/" "right", .poll 0 false, .poll 1 false]).2.2.1 1 0
    ⟨"a/", "right", .waiting 0⟩ (by decide +kernel) rfl [.creationReturns "a", .poll 0 false] 0 (by decide)

/-- A waiting call may share its token with the call that it waits for.  Canceling the token
then ends a third call that waits, though that call has another token. -/
theorem cancel_reaches_other_tokens :
    ¬ ∀ (events more : List DirectoryEvent) (i j k : ℕ) (c d : DirectoryCall),
      (empty.run events).calls[i]? = some c → c.phase = .waiting k →
      (empty.run (events ++ more)).calls[j]? = some d → d.token ≠ c.token →
      (empty.run (events ++ .cancel c.token :: more)).outcome? j = (empty.run (events ++ more)).outcome? j := by
  intro isolated
  have same := isolated
    [.call "d" "t", .call "d" "t", .call "d" "s", .poll 0 true, .poll 1 true, .poll 2 true]
    [.poll 0 true, .poll 1 true, .poll 2 true, .creationReturns "d", .poll 0 true, .poll 1 true, .poll 2 true]
    1 2 0 ⟨"d", "t", .waiting 0⟩ ⟨"d", "s", .ended .done⟩ (by decide +kernel) rfl (by decide +kernel) (by decide)
  revert same
  decide +kernel

end Folio.Directories
