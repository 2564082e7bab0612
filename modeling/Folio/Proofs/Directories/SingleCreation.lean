import Folio.Proofs.Directories.Sound

/-!
# One creation for a directory

Along every run an attempt is begun only for a directory none counts for.  So at most one
call is creating a directory at a time, a second attempt begins only after the calls that
began the earlier ones were canceled or dropped, and a completed attempt is the last.

Main statement: `single_creation`.
-/

namespace Folio.Directories

variable {ds : Directories} {owner : ℕ → ℕ} {i j k : ℕ} {c : DirectoryCall} {a : Attempt}

/-! ## What stays as time goes on -/

/-- What ended stays as it ended, and nothing is forgotten. -/
structure Later (ds ds' : Directories) : Prop where
  calls : ∀ (i : ℕ) (c : DirectoryCall), ds.calls[i]? = some c → ∃ d : DirectoryCall, ds'.calls[i]? = some d ∧
    d.path = c.path ∧ d.token = c.token ∧ ∀ o, c.phase = .ended o → d.phase = .ended o
  attempts : ∀ (k : ℕ) (a : Attempt), ds.attempts[k]? = some a → ∃ b : Attempt, ds'.attempts[k]? = some b ∧
    b.path = a.path ∧ (a.state = .completed ∨ a.state = .abandoned → b.state = a.state)
  canceled : ∀ token, ds.isCanceled token = true → ds'.isCanceled token = true

theorem Later.refl (ds : Directories) : Later ds ds where
  calls _ c call := ⟨c, call, rfl, rfl, fun _ => id⟩
  attempts _ a attempt := ⟨a, attempt, rfl, fun _ => rfl⟩
  canceled _ := id

theorem Later.trans {ds₁ ds₂ ds₃ : Directories} (first : Later ds₁ ds₂) (second : Later ds₂ ds₃) :
    Later ds₁ ds₃ where
  calls i c call := by
    obtain ⟨d, there, path, token, ended⟩ := first.calls i c call
    obtain ⟨e, found, path', token', ended'⟩ := second.calls i d there
    exact ⟨e, found, path'.trans path, token'.trans token, fun o past => ended' o (ended o past)⟩
  attempts k a attempt := by
    obtain ⟨b, there, path, settled⟩ := first.attempts k a attempt
    obtain ⟨b', found, path', settled'⟩ := second.attempts k b there
    refine ⟨b', found, path'.trans path, fun past => ?_⟩
    have same := settled past
    exact (settled' (by rwa [same])).trans same
  canceled token past := second.canceled token (first.canceled token past)

/-- A call that has not ended changes its phase. -/
theorem later_setPhase (ds : Directories) (call : ds.calls[i]? = some c) (open' : ∀ o, c.phase ≠ .ended o)
    (phase : CallPhase) : Later ds (ds.setPhase i phase) where
  calls j d found := by
    by_cases same : j = i
    · subst same
      rw [call] at found
      obtain rfl := Option.some_inj.1 found
      exact ⟨_, calls_setPhase_self ds call phase, rfl, rfl, fun o ended => absurd ended (open' o)⟩
    · exact ⟨d, by rwa [calls_setPhase_other same], rfl, rfl, fun _ => id⟩
  attempts _ a attempt := ⟨a, attempt, rfl, fun _ => rfl⟩
  canceled _ := id

/-- An attempt that has not ended changes its state. -/
theorem later_setAttempt {entries : List (FilePath.Parts × ℕ)} (attempt : ds.attempts[k]? = some a)
    (pending : a.state = .running ∨ a.state = .returned) (state : AttemptState) :
    Later ds { ds.setAttempt k state with entries } where
  calls _ c call := ⟨c, call, rfl, rfl, fun _ => id⟩
  attempts m b found := by
    by_cases same : m = k
    · subst same
      rw [attempt] at found
      obtain rfl := Option.some_inj.1 found
      refine ⟨_, attempts_setAttempt_self attempt state, rfl, fun past => ?_⟩
      obtain running | returned := pending
      · simp [running] at past
      · simp [returned] at past
    · exact ⟨b, (attempts_setAttempt_other same state).trans found, rfl, fun _ => rfl⟩
  canceled _ := id

theorem later_begin (call : ds.calls[i]? = some c) (fresh : c.phase = .fresh) : Later ds (ds.begin i c.path) := by
  -- The attempt is added first, and then the call takes its phase.
  let added : Directories :=
    { ds with
      attempts := ds.attempts ++ [⟨c.path, .running⟩]
      entries := (FilePath.parts c.path, ds.attempts.length) :: ds.entries }
  have adds : Later ds added :=
    ⟨fun _ c call => ⟨c, call, rfl, rfl, fun _ => id⟩,
      fun k a attempt => ⟨a, getElem?_concat_eq_some.2 (.inl attempt), rfl, fun _ => rfl⟩, fun _ => id⟩
  exact adds.trans (later_setPhase added call (by simp [fresh]) _)

theorem Sound.later_move {ds' : Directories} (sound : Sound ds owner) (move : Move i ds ds') : Later ds ds' := by
  cases move with
  | called path token =>
    exact ⟨fun _ c call => ⟨c, getElem?_concat_eq_some.2 (.inl call), rfl, rfl, fun _ => id⟩,
      fun _ a attempt => ⟨a, attempt, rfl, fun _ => rfl⟩, fun _ => id⟩
  | waits call fresh counts => exact later_setPhase ds call (by simp [fresh]) _
  | begins call fresh free => exact later_begin call fresh
  | @completes c k call creating returned =>
    obtain ⟨a, attempt, -, pending⟩ := sound.creating_attempt call creating
    exact (later_setAttempt attempt pending _).trans
      (later_setPhase (ds.setAttempt k .completed) call (by simp [creating]) _)
  | @abandons c k o call creating reason =>
    obtain ⟨a, attempt, -, pending⟩ := sound.creating_attempt call creating
    exact (later_setAttempt attempt pending _).trans
      (later_setPhase (ds.abandon c.path k) call (by simp [creating]) _)
  | finds call waiting completed => exact later_setPhase ds call (by simp [waiting]) _
  | released call waiting abandoned => exact later_setPhase ds call (by simp [waiting]) _
  | leaves call idle reason =>
    refine later_setPhase ds call (fun o ended => ?_) _
    obtain fresh | ⟨k, waiting⟩ := idle
    · rw [fresh] at ended
      contradiction
    · rw [waiting] at ended
      contradiction
  | returns path =>
    refine ⟨fun _ c call => ⟨c, call, rfl, rfl, fun _ => id⟩, fun k a attempt => ?_, fun _ => id⟩
    obtain ⟨b, found, samePath, kept | ⟨running, -⟩⟩ := returned_of_exists attempt path
    · exact ⟨b, found, samePath, fun _ => kept⟩
    · exact ⟨b, found, samePath, fun past => by simp [running] at past⟩
  | cancels token =>
    exact ⟨fun _ c call => ⟨c, call, rfl, rfl, fun _ => id⟩, fun _ a attempt => ⟨a, attempt, rfl, fun _ => rfl⟩,
      fun other past => by rw [isCanceled_cons, past, Bool.or_true]⟩

theorem Sound.later_moves {ds' : Directories} (sound : Sound ds owner)
    (moves : Relation.ReflTransGen (Move i) ds ds') : Later ds ds' := by
  induction moves with
  | refl => exact .refl ds
  | tail before move ih => exact ih.trans ((sound.moves before).2.later_move move)

theorem Sound.later_step (sound : Sound ds owner) (e : DirectoryEvent) : Later ds (ds.step e) :=
  sound.later_moves (moves_step ds e)

theorem run_cons (ds : Directories) (e : DirectoryEvent) (events : List DirectoryEvent) :
    ds.run (e :: events) = (ds.step e).run events := rfl

theorem run_append (ds : Directories) (events more : List DirectoryEvent) :
    ds.run (events ++ more) = (ds.run events).run more :=
  List.foldl_append

theorem Sound.later_run (sound : Sound ds owner) (events : List DirectoryEvent) : Later ds (ds.run events) := by
  induction events generalizing ds owner with
  | nil => exact .refl ds
  | cons e events ih => exact (sound.later_step e).trans (ih (sound.step e))

/-! ## When an attempt is begun -/

theorem length_advance (ds : Directories) (i : ℕ) (c : DirectoryCall) (phase : CallPhase) (cancelFirst : Bool) :
    (ds.advance i c phase cancelFirst).attempts.length = ds.attempts.length := by
  have advances := advances_advance ds i c phase cancelFirst
  generalize ds.advance i c phase cancelFirst = ds' at advances
  cases advances <;> simp

theorem length_drop (ds : Directories) (i : ℕ) : (ds.drop i).attempts.length = ds.attempts.length := by
  unfold drop
  cases ds.calls[i]? with
  | none => rfl
  | some c =>
    simp only
    cases c.phase <;> simp

theorem length_begin (ds : Directories) (i : ℕ) (path : String) :
    (ds.begin i path).attempts.length = ds.attempts.length + 1 := by
  simp

/-- Only the poll of a call that nothing counts for begins an attempt: one, for the
directory of the call. -/
theorem Sound.begun_of_grows (sound : Sound ds owner) {e : DirectoryEvent}
    (grows : ds.attempts.length < (ds.step e).attempts.length) :
    ∃ (i : ℕ) (cancelFirst : Bool) (c : DirectoryCall) (a : Attempt), e = .poll i cancelFirst ∧
      ds.calls[i]? = some c ∧ ds.entry? c.path = none ∧
      (ds.step e).attempts[ds.attempts.length]? = some a ∧ a.path = c.path ∧
      (ds.step e).attempts.length = ds.attempts.length + 1 := by
  cases e with
  | call path token => exact absurd grows (lt_irrefl _)
  | creationReturns path =>
    rw [Directories.step, length_returnCreations] at grows
    exact absurd grows (lt_irrefl _)
  | cancel token =>
    simp only [Directories.step] at grows
    split_ifs at grows <;> exact absurd grows (lt_irrefl _)
  | drop i =>
    rw [Directories.step, length_drop] at grows
    exact absurd grows (lt_irrefl _)
  | poll i cancelFirst =>
    rw [Directories.step] at grows ⊢
    cases call : ds.calls[i]? with
    | none =>
      rw [poll_none call] at grows
      exact absurd grows (lt_irrefl _)
    | some c =>
      obtain ⟨ds₁, d, starts, polled⟩ := exists_starts call cancelFirst
      rw [polled, length_advance] at grows ⊢
      -- Moving on never begins an attempt, so the start has.
      cases starts with
      | goesOn => exact absurd grows (lt_irrefl _)
      | waits => exact absurd grows (lt_irrefl _)
      | begins fresh free =>
        have first : (ds.begin i c.path).attempts[ds.attempts.length]? = some ⟨c.path, .running⟩ :=
          getElem?_concat_eq_some.2 (.inr ⟨rfl, rfl⟩)
        have later := (sound.begins call fresh free).later_moves
          (moves_advance (calls_begin_self call c.path) cancelFirst)
        obtain ⟨a, attempt, path, -⟩ := later.attempts _ _ first
        exact ⟨i, cancelFirst, c, a, rfl, call, free, attempt, path, length_begin ds i c.path⟩

/-- The poll of the call `i` began the attempt `k` in the course of the events. -/
def BegunBy (events : List DirectoryEvent) (i k : ℕ) : Prop :=
  ∃ (before : List DirectoryEvent) (cancelFirst : Bool) (after : List DirectoryEvent),
    events = before ++ .poll i cancelFirst :: after ∧ (empty.run before).attempts.length = k ∧
      (empty.run (before ++ [.poll i cancelFirst])).attempts.length = k + 1

theorem BegunBy.append {events : List DirectoryEvent} (begun : BegunBy events i k) (more : List DirectoryEvent) :
    BegunBy (events ++ more) i k := by
  obtain ⟨before, cancelFirst, after, rfl, rest⟩ := begun
  exact ⟨before, cancelFirst, after ++ more, by simp, rest⟩

theorem run_concat (ds : Directories) (events : List DirectoryEvent) (e : DirectoryEvent) :
    ds.run (events ++ [e]) = (ds.run events).step e :=
  run_append ds events [e]

/-- The invariant holds along every run, with the calls that began the attempts as owners. -/
theorem sound_run (events : List DirectoryEvent) :
    ∃ owner, Sound (empty.run events) owner ∧
      ∀ k < (empty.run events).attempts.length, BegunBy events (owner k) k := by
  induction events using List.reverseRecOn with
  | nil => exact ⟨id, sound_empty id, fun k inside => absurd inside (Nat.not_lt_zero k)⟩
  | append_singleton events e ih =>
    obtain ⟨owner, sound, begun⟩ := ih
    rw [run_concat]
    refine ⟨_, sound.step e, fun k inside => ?_⟩
    by_cases old : k < (empty.run events).attempts.length
    · -- An old attempt has the owner that it had.
      rw [if_pos old]
      exact (begun k old).append [e]
    · -- The one that is new was begun by the call that has just been polled.
      rw [if_neg old]
      obtain ⟨i, cancelFirst, c, a, rfl, -, -, -, -, length⟩ := sound.begun_of_grows (e := e) (by omega)
      obtain rfl : k = (empty.run events).attempts.length := by omega
      refine ⟨events, cancelFirst, [], rfl, rfl, ?_⟩
      rw [run_concat]
      exact length

/-! ## One creation at a time, and none after one that completed -/

/-- No attempt is begun for a directory that one counts for. -/
theorem Sound.abandoned_of_begins (sound : Sound ds owner) {e : DirectoryEvent} {b : Attempt}
    (begun : (ds.step e).attempts[ds.attempts.length]? = some b) (earlier : ds.attempts[k]? = some a)
    (same : FilePath.parts a.path = FilePath.parts b.path) : a.state = .abandoned := by
  obtain ⟨i, cancelFirst, c, b', -, -, free, found, path, -⟩ := sound.begun_of_grows (getElem?_lt begun)
  rw [begun] at found
  obtain rfl := Option.some_inj.1 found
  by_contra counts
  have entry := (sound.entry (FilePath.parts c.path) k).2 ⟨a, earlier, by rw [same, path], counts⟩
  rw [entry_eq_lookup, entry] at free
  exact nomatch free

/-- No attempt for a directory is begun after one that completed. -/
theorem Sound.none_after_completed (sound : Sound ds owner) (attempt : ds.attempts[k]? = some a)
    (completed : a.state = .completed) (more : List DirectoryEvent) {b : Attempt} {m : ℕ}
    (found : (ds.run more).attempts[m]? = some b) (same : FilePath.parts b.path = FilePath.parts a.path) :
    m < ds.attempts.length := by
  induction more generalizing ds owner a with
  | nil => exact getElem?_lt found
  | cons e more ih =>
    have step := sound.later_step e
    obtain ⟨a', kept, path, settled⟩ := step.attempts k a attempt
    have bound := ih (sound.step e) kept (by rw [settled (.inl completed), completed]) found (by rw [same, path])
    obtain old | grown := (sound.moves (moves_step ds e)).1.eq_or_lt
    · rwa [old]
    · -- An attempt that begins now is not `m`: the completed one would have to be abandoned.
      obtain ⟨i, cancelFirst, c, b', -, -, -, begun, -, length⟩ := sound.begun_of_grows grown
      by_contra beyond
      obtain rfl : m = ds.attempts.length := by omega
      obtain ⟨b'', there, samePath, -⟩ := ((sound.step e).later_run more).attempts _ _ begun
      rw [run_cons, there] at found
      obtain rfl := Option.some_inj.1 found
      have abandoned := sound.abandoned_of_begins begun attempt (by rw [← same, samePath])
      rw [completed] at abandoned
      exact nomatch abandoned

/-- However calls, polls, creations that come back (with success or not), cancellations and
drops follow each other: no two calls create one directory at the same time; an attempt
begins only when every earlier one for its directory ended with its own call, canceled by
the token of that call or dropped; after an attempt that completed none is begun for its
directory. -/
theorem single_creation (events : List DirectoryEvent) :
    (∀ (i j k m : ℕ) (c d : DirectoryCall), (empty.run events).calls[i]? = some c →
      (empty.run events).calls[j]? = some d → c.phase = .creating k → d.phase = .creating m →
      FilePath.parts c.path = FilePath.parts d.path → i = j) ∧
    (∀ (e : DirectoryEvent) (k : ℕ) (a b : Attempt),
      (empty.run (events ++ [e])).attempts[(empty.run events).attempts.length]? = some b →
      (empty.run events).attempts[k]? = some a → FilePath.parts a.path = FilePath.parts b.path →
      ∃ (i : ℕ) (c : DirectoryCall), BegunBy events i k ∧ (empty.run events).calls[i]? = some c ∧ c.path = a.path ∧
        (c.phase = .ended .canceled ∧ (empty.run events).isCanceled c.token = true ∨ c.phase = .ended .dropped)) ∧
    (∀ (k : ℕ) (a : Attempt), (empty.run events).attempts[k]? = some a → a.state = .completed →
      ∀ (more : List DirectoryEvent) (m : ℕ) (b : Attempt), (empty.run (events ++ more)).attempts[m]? = some b →
        FilePath.parts b.path = FilePath.parts a.path → m < (empty.run events).attempts.length) := by
  obtain ⟨owner, sound, begun⟩ := sound_run events
  refine ⟨fun i j k m c d call other creating too same => sound.creating_unique call other creating too same,
    fun e k a b later earlier same => ?_, fun k a attempt completed more m b found same => ?_⟩
  · rw [run_concat] at later
    obtain ⟨c, call, path, accounts⟩ := sound.owned k a earlier
    rw [sound.abandoned_of_begins later earlier same] at accounts
    exact ⟨owner k, c, begun k (getElem?_lt earlier), call, path, accounts⟩
  · rw [run_append] at found
    exact sound.none_after_completed attempt completed more found same

/-- A second call begins anew what the first call, which was dropped, had begun. -/
theorem single_creation_after_drop :
    ∃ (i : ℕ) (c : DirectoryCall),
      BegunBy [.call "a/b" "left", .call "a//b" "right", .poll 0 false, .drop 0] i 0 ∧
      (empty.run [.call "a/b" "left", .call "a//b" "right", .poll 0 false, .drop 0]).calls[i]? = some c ∧
      c.path = "a/b" ∧
      (c.phase = .ended .canceled ∧
        (empty.run [.call "a/b" "left", .call "a//b" "right", .poll 0 false, .drop 0]).isCanceled c.token = true ∨
        c.phase = .ended .dropped) :=
  (single_creation [.call "a/b" "left", .call "a//b" "right", .poll 0 false, .drop 0]).2.1 (.poll 1 false) 0
    ⟨"a/b", .abandoned⟩ ⟨"a//b", .running⟩ (by decide +kernel) (by decide +kernel) (by decide +kernel)

end Folio.Directories
