import Folio.Proofs.Directories.Moves

/-!
# The invariant of directory creation

Every attempt has the call that began it.  While the creation runs, that call is creating;
an attempt is completed if the call saw it come back and abandoned if the call ended
before.  The attempt that counts for a directory is the one that is not abandoned, if there
is one, so there is never more than one of these.
-/

namespace Folio.Directories

variable {ds : Directories} {owner : ℕ → ℕ} {i j k : ℕ} {c : DirectoryCall} {a : Attempt}

/-- What the call that began an attempt is at, by the state of the attempt. -/
def Accounts (ds : Directories) (k : ℕ) (state : AttemptState) (c : DirectoryCall) : Prop :=
  match state with
  | .running | .returned => c.phase = .creating k
  | .completed => c.phase = .ended .done
  | .abandoned => c.phase = .ended .canceled ∧ ds.isCanceled c.token = true ∨ c.phase = .ended .dropped

/-- The calls, the attempts and the entries are in step; `owner` says which call began an
attempt. -/
structure Sound (ds : Directories) (owner : ℕ → ℕ) : Prop where
  entry : ∀ (p : FilePath.Parts) (k : ℕ), ds.entries.lookup p = some k ↔
    ∃ a : Attempt, ds.attempts[k]? = some a ∧ FilePath.parts a.path = p ∧ a.state ≠ .abandoned
  owned : ∀ (k : ℕ) (a : Attempt), ds.attempts[k]? = some a →
    ∃ c : DirectoryCall, ds.calls[owner k]? = some c ∧ c.path = a.path ∧ ds.Accounts k a.state c
  creator : ∀ (i : ℕ) (c : DirectoryCall) (k : ℕ), ds.calls[i]? = some c → c.phase = .creating k →
    k < ds.attempts.length ∧ owner k = i
  waited : ∀ (i : ℕ) (c : DirectoryCall) (k : ℕ), ds.calls[i]? = some c → c.phase = .waiting k →
    ∃ a : Attempt, ds.attempts[k]? = some a ∧ FilePath.parts a.path = FilePath.parts c.path
  finished : ∀ (i : ℕ) (c : DirectoryCall), ds.calls[i]? = some c → c.phase = .ended .done →
    ∃ (k : ℕ) (a : Attempt), ds.attempts[k]? = some a ∧ FilePath.parts a.path = FilePath.parts c.path ∧
      a.state = .completed

theorem sound_empty (owner : ℕ → ℕ) : Sound empty owner where
  entry := by simp [empty]
  owned := by simp [empty]
  creator := by simp [empty]
  waited := by simp [empty]
  finished := by simp [empty]

/-- Only the owners of attempts that there are matter. -/
theorem Sound.congr (sound : Sound ds owner) {other : ℕ → ℕ} (same : ∀ k < ds.attempts.length, other k = owner k) :
    Sound ds other where
  entry := sound.entry
  owned k a attempt := by
    rw [same k (List.getElem?_eq_some_iff.1 attempt).1]
    exact sound.owned k a attempt
  creator i c k call creating := by
    obtain ⟨bound, owned⟩ := sound.creator i c k call creating
    exact ⟨bound, (same k bound).trans owned⟩
  waited := sound.waited
  finished := sound.finished

theorem Accounts.mono {ds' : Directories} {state : AttemptState} (accounts : ds.Accounts k state c)
    (more : ds.isCanceled c.token = true → ds'.isCanceled c.token = true) : ds'.Accounts k state c := by
  cases state with
  | running => exact accounts
  | returned => exact accounts
  | completed => exact accounts
  | abandoned => exact accounts.imp_left fun canceled => ⟨canceled.1, more canceled.2⟩

/-! ## What a creating call has -/

/-- The attempt of a creating call has not ended. -/
theorem Sound.creating_attempt (sound : Sound ds owner) (call : ds.calls[i]? = some c)
    (creating : c.phase = .creating k) :
    ∃ a, ds.attempts[k]? = some a ∧ a.path = c.path ∧ (a.state = .running ∨ a.state = .returned) := by
  obtain ⟨bound, owned⟩ := sound.creator i c k call creating
  obtain ⟨d, found, path, accounts⟩ := sound.owned k _ (List.getElem?_eq_getElem bound)
  rw [owned, call] at found
  obtain rfl := Option.some_inj.1 found
  refine ⟨_, List.getElem?_eq_getElem bound, path.symm, ?_⟩
  generalize ds.attempts[k].state = state at accounts
  cases state with
  | running => exact .inl rfl
  | returned => exact .inr rfl
  | completed =>
    rw [Accounts, creating] at accounts
    contradiction
  | abandoned =>
    simp only [Accounts, creating] at accounts
    obtain ⟨ended, -⟩ | ended := accounts <;> contradiction

/-- The attempt of a creating call counts for its directory. -/
theorem Sound.creating_counts (sound : Sound ds owner) (call : ds.calls[i]? = some c)
    (creating : c.phase = .creating k) : ds.entry? c.path = some k := by
  obtain ⟨a, attempt, path, state⟩ := sound.creating_attempt call creating
  refine (sound.entry _ k).2 ⟨a, attempt, by rw [path], ?_⟩
  obtain running | returned := state
  · simp [running]
  · simp [returned]

/-- There are never two creating calls for one directory. -/
theorem Sound.creating_unique (sound : Sound ds owner) {d : DirectoryCall} {m : ℕ} (call : ds.calls[i]? = some c)
    (other : ds.calls[j]? = some d) (creating : c.phase = .creating k) (too : d.phase = .creating m)
    (same : FilePath.parts c.path = FilePath.parts d.path) : i = j := by
  have first := sound.creating_counts call creating
  have second := sound.creating_counts other too
  rw [entry_eq_lookup, same, ← entry_eq_lookup, second] at first
  obtain rfl := Option.some_inj.1 first
  rw [← (sound.creator i c m call creating).2, ← (sound.creator j d m other too).2]

/-- An attempt that has not ended has a creating call. -/
theorem Sound.exists_creator (sound : Sound ds owner) (attempt : ds.attempts[k]? = some a)
    (pending : a.state = .running ∨ a.state = .returned) :
    ∃ c, ds.calls[owner k]? = some c ∧ c.path = a.path ∧ c.phase = .creating k := by
  obtain ⟨c, call, path, accounts⟩ := sound.owned k a attempt
  refine ⟨c, call, path, ?_⟩
  obtain running | returned := pending
  · rwa [running] at accounts
  · rwa [returned] at accounts

/-! ## Moves keep the invariant -/

theorem getElem?_concat_eq_some {α : Type} {l : List α} {x y : α} {n : ℕ} :
    (l ++ [x])[n]? = some y ↔ l[n]? = some y ∨ n = l.length ∧ x = y := by
  rw [List.getElem?_append]
  split
  · rename_i inside
    exact ⟨.inl, fun h => h.resolve_right fun last => by omega⟩
  · rename_i outside
    rw [List.getElem?_eq_none (not_lt.1 outside)]
    constructor
    · intro found
      obtain ⟨bound, same⟩ := List.getElem?_eq_some_iff.1 found
      simp only [List.length_singleton] at bound
      exact .inr ⟨by omega, by simpa using same⟩
    · rintro (found | ⟨rfl, rfl⟩)
      · contradiction
      · simp

theorem getElem?_lt {α : Type} {l : List α} {x : α} {n : ℕ} (found : l[n]? = some x) : n < l.length :=
  (List.getElem?_eq_some_iff.1 found).1

/-- A call that is not creating owns no attempt that it could disturb. -/
theorem Sound.owner_ne (sound : Sound ds owner) (call : ds.calls[i]? = some c)
    (idle : c.phase = .fresh ∨ ∃ k, c.phase = .waiting k) (attempt : ds.attempts[k]? = some a) : owner k ≠ i := by
  rintro rfl
  obtain ⟨d, found, -, accounts⟩ := sound.owned k a attempt
  rw [call] at found
  obtain rfl := Option.some_inj.1 found
  generalize a.state = state at accounts
  obtain idle | ⟨m, idle⟩ := idle <;> cases state <;> simp [Accounts, idle] at accounts

/-- One call goes to another phase, and no attempt is lost or completed no more: what the calls
say of attempts stays so if it is so of this call. -/
theorem Sound.of_moved (sound : Sound ds owner) {ds' : Directories} {owner' : ℕ → ℕ} {phase : CallPhase}
    (moved : ds'.calls[i]? = some { c with phase }) (others : ∀ {j : ℕ}, j ≠ i → ds'.calls[j]? = ds.calls[j]?)
    (kept : ∀ (k : ℕ) (a : Attempt), ds.attempts[k]? = some a → owner' k = owner k ∧
      ∃ b : Attempt, ds'.attempts[k]? = some b ∧ b.path = a.path ∧ (a.state = .completed → b.state = .completed))
    (entry : ∀ (p : FilePath.Parts) (k : ℕ), ds'.entries.lookup p = some k ↔
      ∃ a : Attempt, ds'.attempts[k]? = some a ∧ FilePath.parts a.path = p ∧ a.state ≠ .abandoned)
    (owned : ∀ (k : ℕ) (a : Attempt), ds'.attempts[k]? = some a →
      ∃ c : DirectoryCall, ds'.calls[owner' k]? = some c ∧ c.path = a.path ∧ ds'.Accounts k a.state c)
    (creates : ∀ k, phase = .creating k → k < ds'.attempts.length ∧ owner' k = i)
    (waits : ∀ k, phase = .waiting k → ∃ a : Attempt, ds'.attempts[k]? = some a ∧ FilePath.parts a.path = FilePath.parts c.path)
    (done : phase = .ended .done → ∃ (k : ℕ) (a : Attempt), ds'.attempts[k]? = some a ∧
      FilePath.parts a.path = FilePath.parts c.path ∧ a.state = .completed) :
    Sound ds' owner' where
  entry := entry
  owned := owned
  creator j d k found creating := by
    by_cases same : j = i
    · subst same
      rw [moved] at found
      obtain rfl := Option.some_inj.1 found
      exact creates k creating
    · rw [others same] at found
      obtain ⟨bound, owns⟩ := sound.creator j d k found creating
      obtain ⟨sameOwner, b, there, -⟩ := kept k _ (List.getElem?_eq_getElem bound)
      exact ⟨getElem?_lt there, sameOwner.trans owns⟩
  waited j d k found waiting := by
    by_cases same : j = i
    · subst same
      rw [moved] at found
      obtain rfl := Option.some_inj.1 found
      exact waits k waiting
    · rw [others same] at found
      obtain ⟨a, attempt, path⟩ := sound.waited j d k found waiting
      obtain ⟨-, b, there, samePath, -⟩ := kept k a attempt
      exact ⟨b, there, by rw [samePath, path]⟩
  finished j d found ended := by
    by_cases same : j = i
    · subst same
      rw [moved] at found
      obtain rfl := Option.some_inj.1 found
      exact done ended
    · rw [others same] at found
      obtain ⟨k, a, attempt, path, completed⟩ := sound.finished j d found ended
      obtain ⟨-, b, there, samePath, still⟩ := kept k a attempt
      exact ⟨k, b, there, by rw [samePath, path], still completed⟩

theorem Sound.setPhase (sound : Sound ds owner) (call : ds.calls[i]? = some c)
    (idle : c.phase = .fresh ∨ ∃ k, c.phase = .waiting k) {phase : CallPhase} (noCreator : ∀ k, phase ≠ .creating k)
    (waits : ∀ k, phase = .waiting k → ∃ a : Attempt, ds.attempts[k]? = some a ∧ FilePath.parts a.path = FilePath.parts c.path)
    (done : phase = .ended .done → ∃ (k : ℕ) (a : Attempt), ds.attempts[k]? = some a ∧
      FilePath.parts a.path = FilePath.parts c.path ∧ a.state = .completed) :
    Sound (ds.setPhase i phase) owner := by
  refine sound.of_moved (calls_setPhase_self ds call phase) (fun other => calls_setPhase_other other phase)
    (fun k a attempt => ⟨rfl, a, attempt, rfl, id⟩) sound.entry (fun k a attempt => ?_)
    (fun k creating => absurd creating (noCreator k)) waits done
  rw [calls_setPhase_other (sound.owner_ne call idle attempt)]
  exact sound.owned k a attempt

theorem Sound.called (sound : Sound ds owner) (path token : String) :
    Sound { ds with calls := ds.calls ++ [⟨path, token, .fresh⟩] } owner where
  entry := sound.entry
  owned k a attempt := by
    obtain ⟨c, call, rest⟩ := sound.owned k a attempt
    exact ⟨c, getElem?_concat_eq_some.2 (.inl call), rest⟩
  creator j d k found creating := by
    obtain call | ⟨-, rfl⟩ := getElem?_concat_eq_some.1 found
    · exact sound.creator j d k call creating
    · contradiction
  waited j d k found waiting := by
    obtain call | ⟨-, rfl⟩ := getElem?_concat_eq_some.1 found
    · exact sound.waited j d k call waiting
    · contradiction
  finished j d found ended := by
    obtain call | ⟨-, rfl⟩ := getElem?_concat_eq_some.1 found
    · exact sound.finished j d call ended
    · contradiction

/-- An attempt that is begun counts for its directory, for which none did before. -/
theorem Sound.begins_entry (sound : Sound ds owner) (i : ℕ) {path : String} (free : ds.entry? path = none)
    (p : FilePath.Parts) (k : ℕ) :
    (ds.begin i path).entries.lookup p = some k ↔ ∃ a : Attempt, (ds.begin i path).attempts[k]? = some a ∧
      FilePath.parts a.path = p ∧ a.state ≠ .abandoned := by
  show List.lookup p ((FilePath.parts path, ds.attempts.length) :: ds.entries) = some k ↔ _
  rw [List.lookup_cons, attempts_begin]
  simp only [getElem?_concat_eq_some]
  by_cases here : p = FilePath.parts path
  · rw [here, beq_self_eq_true]
    constructor
    · intro same
      exact ⟨_, .inr ⟨(Option.some_inj.1 same).symm, rfl⟩, rfl, by simp⟩
    · rintro ⟨a, old | ⟨rfl, rfl⟩, samePath, state⟩
      · have counts := (sound.entry _ k).2 ⟨a, old, samePath, state⟩
        rw [entry_eq_lookup, counts] at free
        contradiction
      · rfl
  · rw [beq_eq_false_iff_ne.2 here]
    constructor
    · intro found
      obtain ⟨a, old, rest⟩ := (sound.entry p k).1 found
      exact ⟨a, .inl old, rest⟩
    · rintro ⟨a, old | ⟨rfl, rfl⟩, samePath, state⟩
      · exact (sound.entry p k).2 ⟨a, old, samePath, state⟩
      · exact absurd samePath.symm here

theorem Sound.begins (sound : Sound ds owner) (call : ds.calls[i]? = some c) (fresh : c.phase = .fresh)
    (free : ds.entry? c.path = none) :
    Sound (ds.begin i c.path) fun k => if k < ds.attempts.length then owner k else i := by
  have begun := calls_begin_self call c.path
  refine sound.of_moved begun (fun other => calls_begin_other other c.path) (fun k a attempt => ?_)
    (sound.begins_entry i free) (fun k a attempt => ?_) (fun k creating => ?_) (by simp) (by simp)
  · rw [attempts_begin]
    exact ⟨if_pos (getElem?_lt attempt), a, getElem?_concat_eq_some.2 (.inl attempt), rfl, id⟩
  · rw [attempts_begin] at attempt
    obtain old | ⟨rfl, rfl⟩ := getElem?_concat_eq_some.1 attempt
    · rw [if_pos (getElem?_lt old), calls_begin_other (sound.owner_ne call (.inl fresh) old)]
      exact sound.owned k a old
    · rw [if_neg (lt_irrefl _)]
      exact ⟨_, begun, rfl, rfl⟩
  · obtain rfl := CallPhase.creating.inj creating
    simp only [attempts_begin, List.length_append, List.length_singleton]
    exact ⟨by omega, if_neg (lt_irrefl _)⟩

/-- A creating call owns no other attempt. -/
theorem Sound.owner_ne_of_creating (sound : Sound ds owner) (call : ds.calls[i]? = some c)
    (creating : c.phase = .creating k) {m : ℕ} (other : m ≠ k) (attempt : ds.attempts[m]? = some a) :
    owner m ≠ i := by
  rintro rfl
  obtain ⟨d, same, -, accounts⟩ := sound.owned m a attempt
  rw [call] at same
  obtain rfl := Option.some_inj.1 same
  generalize a.state = state at accounts
  cases state <;> simp [Accounts, creating, Ne.symm other] at accounts

/-- An attempt that is abandoned counts no more; one that completes counts as before. -/
theorem Sound.settles_entry (sound : Sound ds owner) (call : ds.calls[i]? = some c) (creating : c.phase = .creating k)
    {state : AttemptState} {entries : List (FilePath.Parts × ℕ)}
    (settled : state = .completed ∧ entries = ds.entries ∨
      state = .abandoned ∧ entries = ds.entries.filter fun e => e.1 != FilePath.parts c.path)
    (p : FilePath.Parts) (m : ℕ) :
    entries.lookup p = some m ↔ ∃ a : Attempt, (ds.setAttempt k state).attempts[m]? = some a ∧
      FilePath.parts a.path = p ∧ a.state ≠ .abandoned := by
  obtain ⟨a, attempt, path, pending⟩ := sound.creating_attempt call creating
  have counts := sound.creating_counts call creating
  rw [entry_eq_lookup] at counts
  have kept : a.state ≠ .abandoned := by
    obtain running | returned := pending
    · simp [running]
    · simp [returned]
  by_cases same : m = k
  · subst same
    have old := sound.entry p m
    simp only [attempt, attempts_setAttempt_self attempt, Option.some.injEq, exists_eq_left'] at old ⊢
    obtain ⟨rfl, rfl⟩ | ⟨rfl, rfl⟩ := settled
    · simpa [kept] using old
    · -- The attempt counted for its own directory, which is now off the entries.
      simp only [lookup_filter_ne, ne_eq, not_true_eq_false, and_false, iff_false]
      split_ifs with here
      · simp
      · rw [old]
        rintro ⟨rfl, -⟩
        exact here (by rw [path])
  · rw [attempts_setAttempt_other same, ← sound.entry p m]
    obtain ⟨-, rfl⟩ | ⟨-, rfl⟩ := settled
    · rfl
    · -- The entries lose one directory, for which this other attempt did not count.
      rw [lookup_filter_ne]
      split_ifs with here
      · simp [here, counts, Ne.symm same]
      · rfl

/-- The creating call ends, and its attempt with it: completed, or abandoned and off the
entries. -/
theorem Sound.settles (sound : Sound ds owner) (call : ds.calls[i]? = some c) (creating : c.phase = .creating k)
    {state : AttemptState} {o : CallOutcome} {entries : List (FilePath.Parts × ℕ)}
    (settled : state = .completed ∧ o = .done ∧ entries = ds.entries ∨
      state = .abandoned ∧ (o = .canceled ∧ ds.isCanceled c.token = true ∨ o = .dropped) ∧
        entries = ds.entries.filter fun e => e.1 != FilePath.parts c.path) :
    Sound ({ ds.setAttempt k state with entries }.setPhase i (.ended o)) owner := by
  obtain ⟨a, attempt, path, pending⟩ := sound.creating_attempt call creating
  have owned := (sound.creator i c k call creating).2
  have ended := calls_setPhase_self { ds.setAttempt k state with entries } call (.ended o)
  have now := attempts_setAttempt_self attempt state
  refine sound.of_moved ended (fun other => calls_setPhase_other other _) (fun m b found => ⟨rfl, ?_⟩)
    (sound.settles_entry call creating (settled.imp (fun h => ⟨h.1, h.2.2⟩) fun h => ⟨h.1, h.2.2⟩))
    (fun m b found => ?_) (by simp) (by simp) (fun done => ?_)
  · by_cases same : m = k
    · subst same
      rw [attempt] at found
      obtain rfl := Option.some_inj.1 found
      refine ⟨_, now, rfl, fun completed => ?_⟩
      rw [completed] at pending
      simp at pending
    · exact ⟨b, (attempts_setAttempt_other same state).trans found, rfl, id⟩
  · by_cases same : m = k
    · subst same
      obtain rfl := Option.some_inj.1 (now.symm.trans found)
      rw [owned]
      refine ⟨_, ended, path.symm, ?_⟩
      obtain ⟨rfl, rfl, -⟩ | ⟨rfl, reason, -⟩ := settled
      · rfl
      · exact reason.imp (fun ⟨outcome, token⟩ => ⟨by rw [outcome], token⟩) fun outcome => by rw [outcome]
    · have old := (attempts_setAttempt_other same state).symm.trans found
      rw [calls_setPhase_other (sound.owner_ne_of_creating call creating same old)]
      exact sound.owned m b old
  · obtain rfl := CallPhase.ended.inj done
    obtain ⟨rfl, -⟩ | ⟨-, ⟨other, -⟩ | other, -⟩ := settled
    · exact ⟨k, _, now, by rw [path], rfl⟩
    · contradiction
    · contradiction

/-- A creation that comes back changes the state of a running attempt only. -/
theorem exists_of_returned {b : Attempt} {path : String} (found : (ds.returnCreations path).attempts[k]? = some b) :
    ∃ a, ds.attempts[k]? = some a ∧ b.path = a.path ∧
      (b.state = a.state ∨ a.state = .running ∧ b.state = .returned) := by
  simp only [returnCreations, List.getElem?_map] at found
  obtain ⟨a, attempt, rfl⟩ := Option.map_eq_some_iff.1 found
  refine ⟨a, attempt, ?_⟩
  split_ifs with running
  · simp only [Bool.and_eq_true, beq_iff_eq] at running
    exact ⟨rfl, .inr ⟨running.2, rfl⟩⟩
  · exact ⟨rfl, .inl rfl⟩

theorem returned_of_exists (attempt : ds.attempts[k]? = some a) (path : String) :
    ∃ b, (ds.returnCreations path).attempts[k]? = some b ∧ b.path = a.path ∧
      (b.state = a.state ∨ a.state = .running ∧ b.state = .returned) := by
  have inside : k < (ds.returnCreations path).attempts.length := by
    rw [length_returnCreations]
    exact getElem?_lt attempt
  obtain ⟨a', same, rest⟩ := exists_of_returned (List.getElem?_eq_getElem inside)
  rw [attempt] at same
  obtain rfl := Option.some_inj.1 same
  exact ⟨_, List.getElem?_eq_getElem inside, rest⟩

theorem Sound.returns (sound : Sound ds owner) (path : String) : Sound (ds.returnCreations path) owner where
  entry p k := by
    rw [returnCreations_entries, sound.entry p k]
    constructor
    · rintro ⟨a, attempt, samePath, counts⟩
      obtain ⟨b, found, pathKept, kept | ⟨-, returned⟩⟩ := returned_of_exists attempt path
      · exact ⟨b, found, by rw [pathKept, samePath], by rwa [kept]⟩
      · exact ⟨b, found, by rw [pathKept, samePath], by simp [returned]⟩
    · rintro ⟨b, found, samePath, counts⟩
      obtain ⟨a, attempt, pathKept, kept | ⟨running, -⟩⟩ := exists_of_returned found
      · exact ⟨a, attempt, by rw [← pathKept, samePath], by rwa [← kept]⟩
      · exact ⟨a, attempt, by rw [← pathKept, samePath], by simp [running]⟩
  owned k b found := by
    obtain ⟨a, attempt, pathKept, state⟩ := exists_of_returned found
    obtain ⟨c, call, samePath, accounts⟩ := sound.owned k a attempt
    refine ⟨c, call, by rw [pathKept, samePath], ?_⟩
    obtain kept | ⟨running, returned⟩ := state
    · rw [kept]
      exact accounts
    · rw [running] at accounts
      rw [returned]
      exact accounts
  creator i c k call creating := by
    rw [length_returnCreations]
    exact sound.creator i c k call creating
  waited i c k call waiting := by
    obtain ⟨a, attempt, samePath⟩ := sound.waited i c k call waiting
    obtain ⟨b, found, pathKept, -⟩ := returned_of_exists attempt path
    exact ⟨b, found, by rw [pathKept, samePath]⟩
  finished i c call done := by
    obtain ⟨k, a, attempt, samePath, completed⟩ := sound.finished i c call done
    obtain ⟨b, found, pathKept, kept | ⟨running, -⟩⟩ := returned_of_exists attempt path
    · exact ⟨k, b, found, by rw [pathKept, samePath], by rw [kept, completed]⟩
    · rw [completed] at running
      contradiction

theorem isCanceled_cons (ds : Directories) (token other : String) :
    isCanceled { ds with canceled := other :: ds.canceled } token = (token == other || ds.isCanceled token) :=
  List.contains_cons

theorem step_cancel (ds : Directories) (token : String) :
    ds.step (.cancel token) =
      { ds with canceled := if ds.isCanceled token then ds.canceled else token :: ds.canceled } := by
  rw [Directories.step]
  split_ifs <;> rfl

theorem isCanceled_step (ds : Directories) (token other : String) :
    (ds.step (.cancel token)).isCanceled other = (other == token || ds.isCanceled other) := by
  rw [Directories.step]
  split_ifs with already
  · cases same : other == token with
    | true => rw [beq_iff_eq.1 same, already, Bool.true_or]
    | false => rfl
  · exact isCanceled_cons ds other token

theorem Sound.cancels (sound : Sound ds owner) (token : String) :
    Sound { ds with canceled := token :: ds.canceled } owner where
  entry := sound.entry
  owned k a attempt := by
    obtain ⟨c, call, path, accounts⟩ := sound.owned k a attempt
    exact ⟨c, call, path, accounts.mono fun canceled => by rw [isCanceled_cons, canceled, Bool.or_true]⟩
  creator := sound.creator
  waited := sound.waited
  finished := sound.finished

/-- Every move keeps the invariant; the call that moves owns the attempt that it begins. -/
theorem Sound.move {ds' : Directories} (sound : Sound ds owner) (move : Move i ds ds') :
    Sound ds' fun k => if k < ds.attempts.length then owner k else i := by
  -- All moves but one leave the attempts in number, and then nobody new owns one.
  have congr : ∀ {ds' : Directories}, ds'.attempts.length = ds.attempts.length → Sound ds' owner →
      Sound ds' fun k => if k < ds.attempts.length then owner k else i := by
    intro ds' length sound'
    exact sound'.congr fun k inside => if_pos (by omega)
  cases move with
  | called path token => exact congr rfl (sound.called path token)
  | @waits c k call fresh counts =>
    obtain ⟨a, attempt, path, -⟩ := (sound.entry _ k).1 counts
    refine congr rfl (sound.setPhase call (.inl fresh) (by simp) (fun m same => ?_) (by simp))
    obtain rfl := CallPhase.waiting.inj same
    exact ⟨a, attempt, path⟩
  | begins call fresh free => exact sound.begins call fresh free
  | completes call creating returned =>
    exact congr (length_setAttempt _ _ _) (sound.settles call creating (.inl ⟨rfl, rfl, rfl⟩))
  | abandons call creating reason =>
    exact congr (length_setAttempt _ _ _) (sound.settles call creating (.inr ⟨rfl, reason, rfl⟩))
  | @finds c k call waiting completed =>
    obtain ⟨a, attempt, path⟩ := sound.waited i c k call waiting
    rw [attemptState_eq attempt] at completed
    exact congr rfl (sound.setPhase call (.inr ⟨k, waiting⟩) (by simp) (by simp)
      fun _ => ⟨k, a, attempt, path, completed⟩)
  | released call waiting abandoned =>
    exact congr rfl (sound.setPhase call (.inr ⟨_, waiting⟩) (by simp) (by simp) (by simp))
  | leaves call idle reason =>
    refine congr rfl (sound.setPhase call idle (by simp) (by simp) fun done => ?_)
    obtain rfl := CallPhase.ended.inj done
    simp at reason
  | returns path => exact congr (length_returnCreations _ _) (sound.returns path)
  | cancels token => exact congr rfl (sound.cancels token)

theorem Move.length_le {ds' : Directories} (move : Move i ds ds') : ds.attempts.length ≤ ds'.attempts.length := by
  cases move with
  | begins => simp
  | completes => simp
  | abandons => simp
  | returns => simp
  | _ => exact le_rfl

theorem Sound.moves {ds' : Directories} (sound : Sound ds owner) (moves : Relation.ReflTransGen (Move i) ds ds') :
    ds.attempts.length ≤ ds'.attempts.length ∧
      Sound ds' fun k => if k < ds.attempts.length then owner k else i := by
  induction moves with
  | refl => exact ⟨le_rfl, sound.congr fun k inside => if_pos inside⟩
  | tail before move ih =>
    obtain ⟨grown, middle⟩ := ih
    refine ⟨grown.trans move.length_le, (middle.move move).congr fun k inside => ?_⟩
    split_ifs <;> first | rfl | omega

/-- So does every event. -/
theorem Sound.step (sound : Sound ds owner) (e : DirectoryEvent) :
    Sound (ds.step e) fun k => if k < ds.attempts.length then owner k else e.subject :=
  (sound.moves (moves_step ds e)).2

end Folio.Directories
