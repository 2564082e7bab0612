import Folio.Proofs.Directories.SingleCreation

/-!
# Why a call ends

A call ends well only after an attempt for its directory has completed.  It is canceled
for its own token, or because the call that it waited for was canceled or dropped.  Where
nothing can move, every call that waits still waits for a call that creates.
-/

namespace Folio.Directories

variable {ds : Directories} {owner : ℕ → ℕ} {i j k : ℕ} {c : DirectoryCall} {a : Attempt} {cancelFirst : Bool}

/-! ## Polls and drops -/

theorem drop_none (call : ds.calls[i]? = none) : ds.drop i = ds := by
  simp only [drop, call]

theorem calls_advance_other (other : j ≠ i) (phase : CallPhase) :
    (ds.advance i c phase cancelFirst).calls[j]? = ds.calls[j]? := by
  have advances := advances_advance ds i c phase cancelFirst
  generalize ds.advance i c phase cancelFirst = ds' at advances
  cases advances with
  | stays => rfl
  | _ => exact calls_setPhase_other other _

/-- A poll moves no other call. -/
theorem calls_poll_other (ds : Directories) (other : j ≠ i) (cancelFirst : Bool) :
    (ds.poll i cancelFirst).calls[j]? = ds.calls[j]? := by
  cases call : ds.calls[i]? with
  | none => rw [poll_none call]
  | some c =>
    obtain ⟨ds₁, d, starts, polled⟩ := exists_starts call cancelFirst
    rw [polled, calls_advance_other other]
    cases starts with
    | goesOn => rfl
    | waits => exact calls_setPhase_other other _
    | begins => exact calls_begin_other other _

/-- A poll makes no call. -/
theorem exists_call_of_poll (sound : Sound ds owner) (found : (ds.poll i cancelFirst).calls[j]? = some c) :
    ∃ d, ds.calls[j]? = some d ∧ d.path = c.path := by
  by_cases other : j = i
  · subst other
    cases call : ds.calls[j]? with
    | none =>
      rw [poll_none call, call] at found
      cases found
    | some d =>
      obtain ⟨e, same, path, -⟩ := (sound.later_step (.poll j cancelFirst)).calls j d call
      obtain rfl := Option.some_inj.1 (found.symm.trans same)
      exact ⟨d, rfl, path.symm⟩
  · rw [calls_poll_other ds other] at found
    exact ⟨c, found, rfl⟩

/-- A poll lets no creation come back. -/
theorem back_of_poll (found : (ds.poll i cancelFirst).attempts[k]? = some a)
    (back : a.state = .returned ∨ a.state = .completed) :
    ∃ b, ds.attempts[k]? = some b ∧ (b.state = .returned ∨ b.state = .completed) := by
  cases call : ds.calls[i]? with
  | none =>
    rw [poll_none call] at found
    exact ⟨a, found, back⟩
  | some c =>
    obtain ⟨ds₁, d, starts, polled⟩ := exists_starts call cancelFirst
    rw [polled] at found
    have before : ∃ b, ds₁.attempts[k]? = some b ∧ (b.state = .returned ∨ b.state = .completed) := by
      have advances := advances_advance ds₁ i d d.phase cancelFirst
      generalize ds₁.advance i d d.phase cancelFirst = ds' at advances found
      generalize d.phase = phase at advances
      cases advances with
      | @abandons m =>
        by_cases same : k = m
        · subst same
          have gone : (ds₁.setAttempt k .abandoned).attempts[k]? = some a := found
          obtain ⟨b, attempt, -⟩ := exists_of_setAttempt gone
          obtain rfl := Option.some_inj.1 (found.symm.trans (attempts_setAttempt_self attempt .abandoned))
          simp at back
        · exact ⟨a, by simpa [attempts_setAttempt_other same] using found, back⟩
      | @completes m returned =>
        by_cases same : k = m
        · subst same
          have done : (ds₁.setAttempt k .completed).attempts[k]? = some a := found
          obtain ⟨b, attempt, -⟩ := exists_of_setAttempt done
          exact ⟨b, attempt, .inl ((attemptState_eq attempt).symm.trans returned)⟩
        · exact ⟨a, by simpa [attempts_setAttempt_other same] using found, back⟩
      | _ => exact ⟨a, found, back⟩
    obtain ⟨b, attempt, back⟩ := before
    cases starts with
    | goesOn => exact ⟨b, attempt, back⟩
    | waits => exact ⟨b, attempt, back⟩
    | begins =>
      rw [attempts_begin] at attempt
      obtain old | ⟨-, rfl⟩ := getElem?_concat_eq_some.1 attempt
      · exact ⟨b, old, back⟩
      · simp at back

/-- A drop moves no other call. -/
theorem calls_drop_other (ds : Directories) (other : j ≠ i) : (ds.drop i).calls[j]? = ds.calls[j]? := by
  unfold drop
  cases ds.calls[i]? with
  | none => rfl
  | some c =>
    simp only
    cases c.phase with
    | ended o => rfl
    | fresh => exact calls_setPhase_other other _
    | creating k => exact calls_setPhase_other other _
    | waiting k => exact calls_setPhase_other other _

/-- A drop ends a call that has not ended. -/
theorem calls_drop_self (call : ds.calls[i]? = some c) :
    ∃ o, (ds.drop i).calls[i]? = some { c with phase := .ended o } ∧ (o = .dropped ∨ c.phase = .ended o) := by
  simp only [drop, call]
  cases phase : c.phase with
  | ended o => exact ⟨o, by rw [call, ← phase], .inr rfl⟩
  | fresh => exact ⟨_, calls_setPhase_self ds call _, .inl rfl⟩
  | waiting k => exact ⟨_, calls_setPhase_self ds call _, .inl rfl⟩
  | creating k => exact ⟨_, calls_setPhase_self (ds.abandon c.path k) call _, .inl rfl⟩

/-! ## Canceled calls -/

/-- What it takes for a call that moves on to be canceled. -/
theorem advance_canceled {d : DirectoryCall} (call : ds.calls[i]? = some c)
    (moved : (ds.advance i c c.phase cancelFirst).calls[i]? = some d) (canceled : d.phase = .ended .canceled) :
    c.phase = .ended .canceled ∨ ds.isCanceled c.token = true ∨
      ∃ k, c.phase = .waiting k ∧ ds.attemptState k = .abandoned := by
  have advances := advances_advance ds i c c.phase cancelFirst
  generalize ds.advance i c c.phase cancelFirst = ds' at advances moved
  generalize now : c.phase = phase at advances
  cases advances with
  | stays =>
    rw [call] at moved
    obtain rfl := Option.some_inj.1 moved
    exact .inl (now.symm.trans canceled)
  | abandons reason => exact .inr (.inl reason)
  | leaves reason => exact .inr (.inl reason)
  | released abandoned => exact .inr (.inr ⟨_, rfl, abandoned⟩)
  | @completes k returned =>
    rw [calls_setPhase_self (ds.setAttempt k .completed) call] at moved
    obtain rfl := Option.some_inj.1 moved
    exact nomatch canceled
  | finds completed =>
    rw [calls_setPhase_self ds call] at moved
    obtain rfl := Option.some_inj.1 moved
    exact nomatch canceled

/-- The attempt that counts is not abandoned. -/
theorem Sound.attemptState_ne (sound : Sound ds owner) {path : String} (counts : ds.entry? path = some k) :
    ds.attemptState k ≠ .abandoned := by
  obtain ⟨a, attempt, -, kept⟩ := (sound.entry _ k).1 counts
  rwa [attemptState_eq attempt]

/-- A poll cancels a call for its token or for the attempt that it waits for. -/
theorem Sound.poll_canceled (sound : Sound ds owner) {d : DirectoryCall} (call : ds.calls[i]? = some c)
    (moved : (ds.poll i cancelFirst).calls[i]? = some d) (canceled : d.phase = .ended .canceled) :
    c.phase = .ended .canceled ∨ ds.isCanceled c.token = true ∨
      ∃ k, c.phase = .waiting k ∧ ds.attemptState k = .abandoned := by
  obtain ⟨ds₁, c₁, starts, polled⟩ := exists_starts call cancelFirst
  rw [polled] at moved
  have reason := advance_canceled (starts.call call) moved canceled
  -- A call that starts to wait does so for an attempt that is not abandoned.
  cases starts with
  | goesOn begun => exact reason
  | begins fresh free =>
    obtain ended | token | ⟨k, waiting, -⟩ := reason
    · exact nomatch ended
    · exact .inr (.inl token)
    · exact nomatch waiting
  | waits fresh counts =>
    obtain ended | token | ⟨m, waiting, abandoned⟩ := reason
    · exact nomatch ended
    · exact .inr (.inl token)
    · obtain rfl := CallPhase.waiting.inj waiting
      have kept := sound.attemptState_ne counts
      exact absurd abandoned kept

/-- So does every event. -/
theorem Sound.step_canceled (sound : Sound ds owner) {e : DirectoryEvent} {d : DirectoryCall}
    (moved : (ds.step e).calls[i]? = some d) (canceled : d.phase = .ended .canceled) :
    ∃ c, ds.calls[i]? = some c ∧ (c.phase = .ended .canceled ∨ ds.isCanceled c.token = true ∨
      ∃ k, c.phase = .waiting k ∧ ds.attemptState k = .abandoned) := by
  have same (call : ds.calls[i]? = some d) : ∃ c, ds.calls[i]? = some c ∧ (c.phase = .ended .canceled ∨
      ds.isCanceled c.token = true ∨ ∃ k, c.phase = .waiting k ∧ ds.attemptState k = .abandoned) :=
    ⟨d, call, .inl canceled⟩
  cases e with
  | call path token =>
    obtain call | ⟨-, rfl⟩ := getElem?_concat_eq_some.1 moved
    · exact same call
    · contradiction
  | creationReturns path => exact same moved
  | cancel token =>
    refine same ?_
    rw [← moved, Directories.step]
    split_ifs <;> rfl
  | drop j =>
    rw [Directories.step] at moved
    by_cases subject : i = j
    · subst subject
      cases call : ds.calls[i]? with
      | none =>
        rw [drop_none call, call] at moved
        contradiction
      | some c =>
        obtain ⟨o, dropped, reason⟩ := calls_drop_self call
        rw [dropped] at moved
        obtain rfl := Option.some_inj.1 moved
        obtain rfl := CallPhase.ended.inj canceled
        obtain other | ended := reason
        · contradiction
        · exact ⟨c, rfl, .inl ended⟩
    · rw [calls_drop_other ds subject] at moved
      exact same moved
  | poll j cancelFirst =>
    rw [Directories.step] at moved
    by_cases subject : i = j
    · subst subject
      cases call : ds.calls[i]? with
      | none =>
        rw [poll_none call, call] at moved
        contradiction
      | some c => exact ⟨c, rfl, sound.poll_canceled call moved canceled⟩
    · rw [calls_poll_other ds subject] at moved
      exact same moved

/-- The call `i` waited for the attempt `k` at some moment of the events. -/
def WaitedFor (events : List DirectoryEvent) (i k : ℕ) : Prop :=
  ∃ (before after : List DirectoryEvent) (c : DirectoryCall), events = before ++ after ∧
    (empty.run before).calls[i]? = some c ∧ c.phase = .waiting k

theorem WaitedFor.append {events : List DirectoryEvent} (waited : WaitedFor events i k) (more : List DirectoryEvent) :
    WaitedFor (events ++ more) i k := by
  obtain ⟨before, after, c, rfl, rest⟩ := waited
  exact ⟨before, after ++ more, c, List.append_assoc _ _ _, rest⟩

/-- Along every run, a canceled call has its token canceled or waited for an attempt for
its directory that was abandoned. -/
theorem canceled_run (events : List DirectoryEvent) (call : (empty.run events).calls[i]? = some c)
    (canceled : c.phase = .ended .canceled) :
    (empty.run events).isCanceled c.token = true ∨ ∃ (k : ℕ) (a : Attempt), WaitedFor events i k ∧
      (empty.run events).attempts[k]? = some a ∧ FilePath.parts a.path = FilePath.parts c.path ∧
      a.state = .abandoned := by
  induction events using List.reverseRecOn generalizing c with
  | nil => exact nomatch call
  | append_singleton events e ih =>
    obtain ⟨owner, sound, -⟩ := sound_run events
    rw [run_concat] at call ⊢
    have later := sound.later_step e
    obtain ⟨d, before, reason⟩ := sound.step_canceled call canceled
    obtain ⟨c', there, path, token, -⟩ := later.calls i d before
    rw [call] at there
    obtain rfl := Option.some_inj.1 there
    have still (k : ℕ) (a : Attempt) (attempt : (empty.run events).attempts[k]? = some a)
        (samePath : FilePath.parts a.path = FilePath.parts d.path) (abandoned : a.state = .abandoned) :
        ∃ b, ((empty.run events).step e).attempts[k]? = some b ∧
          FilePath.parts b.path = FilePath.parts c.path ∧ b.state = .abandoned := by
      obtain ⟨b, found, kept, settled⟩ := later.attempts k a attempt
      exact ⟨b, found, by rw [kept, samePath, path], by rw [settled (.inr abandoned), abandoned]⟩
    obtain earlier | reason | ⟨k, waiting, abandoned⟩ := reason
    · obtain reason | ⟨k, a, waited, attempt, samePath, abandoned⟩ := ih before earlier
      · exact .inl (later.canceled _ (by rwa [token]))
      · obtain ⟨b, rest⟩ := still k a attempt samePath abandoned
        exact .inr ⟨k, b, waited.append [e], rest⟩
    · exact .inl (later.canceled _ (by rwa [token]))
    · obtain ⟨a, attempt, samePath⟩ := sound.waited i d k before waiting
      rw [attemptState_eq attempt] at abandoned
      obtain ⟨b, rest⟩ := still k a attempt samePath abandoned
      exact .inr ⟨k, b, ⟨events, [e], d, rfl, before, waiting⟩, rest⟩

/-! ## States in which nothing moves -/

/-- A poll that ends a call moves it. -/
theorem poll_ne_of_ended {o : CallOutcome} (call : ds.calls[i]? = some c) (waiting : c.phase = .waiting k)
    (ended : ds.poll i cancelFirst = ds.setPhase i (.ended o)) : ds.poll i cancelFirst ≠ ds := by
  intro same
  have moved := calls_setPhase_self ds call (.ended o)
  rw [← ended, same, call] at moved
  rw [Option.some_inj.1 moved] at waiting
  exact nomatch waiting

/-- Where no poll moves a call, the attempt that a call waits for has a creating call and
counts for the directory. -/
theorem Sound.creator_of_quiet (sound : Sound ds owner) (quiet : ∀ i cancelFirst, ds.poll i cancelFirst = ds)
    (call : ds.calls[i]? = some c) (waiting : c.phase = .waiting k) :
    ∃ (m : ℕ) (d : DirectoryCall), ds.calls[m]? = some d ∧ d.phase = .creating k ∧
      FilePath.parts d.path = FilePath.parts c.path ∧ ds.entry? c.path = some k := by
  obtain ⟨a, attempt, path⟩ := sound.waited i c k call waiting
  have polled : ds.poll i false = ds.advance i c (.waiting k) false := by
    rw [poll_eq_advance call (by simp [waiting]), waiting]
  -- If the attempt had ended, a poll would end the call that waits for it.
  have pending : a.state = .running ∨ a.state = .returned := by
    cases state : a.state with
    | running => exact .inl rfl
    | returned => exact .inr rfl
    | completed =>
      refine absurd (quiet i false) (poll_ne_of_ended (o := .done) call waiting ?_)
      simp [polled, advance, attemptState_eq attempt, state]
    | abandoned =>
      refine absurd (quiet i false) (poll_ne_of_ended (o := .canceled) call waiting ?_)
      simp [polled, advance, attemptState_eq attempt, state]
  obtain ⟨d, creator, samePath, creating⟩ := sound.exists_creator attempt pending
  refine ⟨owner k, d, creator, creating, by rw [samePath, path], ?_⟩
  rw [entry_eq_lookup, ← path, ← samePath]
  exact sound.creating_counts creator creating

end Folio.Directories
