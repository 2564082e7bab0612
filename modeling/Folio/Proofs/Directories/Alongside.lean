import Folio.Proofs.Directories.Elsewhere

/-!
# States alongside each other

Two states that differ in what became of some calls that only wait stay alongside each
other: for one directory they have the same attempts, up to their numbers, and the calls
that wait, create or have ended do so in both.
-/

namespace Folio

def CallPhase.rename (f : ℕ → ℕ) : CallPhase → CallPhase
  | .fresh => .fresh
  | .creating k => .creating (f k)
  | .waiting k => .waiting (f k)
  | .ended o => .ended o

def CallPhase.outcome? : CallPhase → Option CallOutcome
  | .ended o => some o
  | .fresh | .creating _ | .waiting _ => none

@[simp] theorem CallPhase.outcome?_rename (f : ℕ → ℕ) (phase : CallPhase) :
    (phase.rename f).outcome? = phase.outcome? := by
  cases phase <;> rfl

@[simp] theorem CallPhase.rename_id (phase : CallPhase) : phase.rename id = phase := by
  cases phase <;> rfl

namespace Directories

def outcome? (ds : Directories) (i : ℕ) : Option CallOutcome :=
  ds.calls[i]?.bind fun c => c.phase.outcome?

/-- The call waits or has ended: it will not create any more. -/
inductive Idle : CallPhase → Prop where
  | waiting (k : ℕ) : Idle (.waiting k)
  | ended (o : CallOutcome) : Idle (.ended o)

variable {ds ds' : Directories} {owner owner' : ℕ → ℕ} {i j k : ℕ} {c c' : DirectoryCall} {a : Attempt}
variable {silent : ℕ → String → Prop} {p : FilePath.Parts} {f : ℕ → ℕ} {cancelFirst : Bool}

/-! ## States that run alongside -/

/-- For the directory `p` the two states agree up to the numbers of attempts, except that
silent calls may wait in one and have ended in the other. -/
structure Alongside (silent : ℕ → String → Prop) (p : FilePath.Parts) (f : ℕ → ℕ) (ds ds' : Directories) : Prop where
  length : ds'.calls.length = ds.calls.length
  calls : ∀ (i : ℕ) (c c' : DirectoryCall), ds.calls[i]? = some c → ds'.calls[i]? = some c' →
    c'.path = c.path ∧ c'.token = c.token ∧ (FilePath.parts c.path = p →
      c'.phase = c.phase.rename f ∨ silent i c.token ∧ Idle c.phase ∧ Idle c'.phase)
  attempts : ∀ (k : ℕ) (a : Attempt), ds.attempts[k]? = some a → FilePath.parts a.path = p →
    ds'.attempts[f k]? = some a
  apart : ∀ (k m : ℕ) (a b : Attempt), ds.attempts[k]? = some a → ds.attempts[m]? = some b →
    FilePath.parts a.path = p → FilePath.parts b.path = p → f k = f m → k = m
  entry : ds'.entries.lookup p = (ds.entries.lookup p).map f
  canceled : ∀ token, ds'.isCanceled token = ds.isCanceled token ∨
    ds.isCanceled token = false ∧ ∀ i, silent i token

theorem Alongside.exists_call (along : Alongside silent p f ds ds') (call : ds.calls[i]? = some c) :
    ∃ c', ds'.calls[i]? = some c' := by
  have inside := getElem?_lt call
  rw [← along.length] at inside
  exact ⟨_, List.getElem?_eq_getElem inside⟩

/-- A call takes corresponding phases in both, or, being silent, idle ones. -/
theorem Alongside.setPhase (along : Alongside silent p f ds ds') {phase phase' : CallPhase}
    (matching : phase' = phase.rename f ∨
      (∀ c, ds.calls[i]? = some c → silent i c.token) ∧ Idle phase ∧ Idle phase') :
    Alongside silent p f (ds.setPhase i phase) (ds'.setPhase i phase') where
  length := by simp [Directories.setPhase, along.length]
  calls j c c' call call' := by
    by_cases same : j = i
    · subst same
      obtain ⟨d, found, rfl⟩ := exists_of_setPhase call
      obtain ⟨d', found', rfl⟩ := exists_of_setPhase call'
      obtain ⟨path, token, -⟩ := along.calls j d d' found found'
      exact ⟨path, token, fun _ => matching.imp_right fun idle => ⟨idle.1 d found, idle.2⟩⟩
    · rw [calls_setPhase_other same] at call call'
      exact along.calls j c c' call call'
  attempts := along.attempts
  apart := along.apart
  entry := along.entry
  canceled := along.canceled

/-- Corresponding attempts take the same state in both. -/
theorem Alongside.setAttempt (along : Alongside silent p f ds ds') (attempt : ds.attempts[k]? = some a)
    (here : FilePath.parts a.path = p) (state : AttemptState) :
    Alongside silent p f (ds.setAttempt k state) (ds'.setAttempt (f k) state) where
  length := along.length
  calls := along.calls
  attempts m b found path := by
    by_cases same : m = k
    · subst same
      rw [attempts_setAttempt_self attempt] at found
      obtain rfl := Option.some_inj.1 found
      exact attempts_setAttempt_self (along.attempts m a attempt here) state
    · rw [attempts_setAttempt_other same] at found
      have other : f m ≠ f k := fun equal => same (along.apart m k b a found attempt path here equal)
      rw [attempts_setAttempt_other other]
      exact along.attempts m b found path
  apart m n b d foundB foundD := by
    obtain ⟨b', before, path⟩ := exists_of_setAttempt foundB
    obtain ⟨d', before', path'⟩ := exists_of_setAttempt foundD
    rw [path, path']
    exact along.apart m n b' d' before before'
  entry := along.entry
  canceled := along.canceled

/-- Both lose what counts for a directory. -/
theorem Alongside.abandon (along : Alongside silent p f ds ds') (attempt : ds.attempts[k]? = some a)
    (here : FilePath.parts a.path = p) (path : String) :
    Alongside silent p f (ds.abandon path k) (ds'.abandon path (f k)) :=
  { along.setAttempt attempt here .abandoned with
    entry := by
      simp only [Directories.abandon, lookup_filter_ne]
      split_ifs
      · rfl
      · exact along.entry }

theorem Sound.rename_congr (sound : Sound ds owner) (call : ds.calls[i]? = some c) {g : ℕ → ℕ}
    (same : ∀ k < ds.attempts.length, g k = f k) : c.phase.rename g = c.phase.rename f := by
  cases phase : c.phase with
  | fresh => rfl
  | ended o => rfl
  | creating k => rw [CallPhase.rename, CallPhase.rename, same k (sound.creator i c k call phase).1]
  | waiting k =>
    obtain ⟨a, attempt, -⟩ := sound.waited i c k call phase
    rw [CallPhase.rename, CallPhase.rename, same k (getElem?_lt attempt)]

/-- Both begin an attempt for the directory. -/
theorem Alongside.begin (along : Alongside silent p f ds ds') (sound : Sound ds owner) {path : String}
    (here : FilePath.parts path = p) :
    Alongside silent p (fun k => if k = ds.attempts.length then ds'.attempts.length else f k)
      (ds.begin i path) (ds'.begin i path) := by
  generalize next : (fun k => if k = ds.attempts.length then ds'.attempts.length else f k) = g
  have last : g ds.attempts.length = ds'.attempts.length := by simp [← next]
  have before : ∀ k < ds.attempts.length, g k = f k := fun k inside => by simp [← next, inside.ne]
  have bound (k : ℕ) (a : Attempt) (attempt : ds.attempts[k]? = some a) (path : FilePath.parts a.path = p) :
      g k < ds'.attempts.length := by
    rw [before k (getElem?_lt attempt)]
    exact getElem?_lt (along.attempts k a attempt path)
  -- The call takes its phase last: the new numbers already hold then.
  have added : Alongside silent p g
      { ds with attempts := ds.attempts ++ [⟨path, .running⟩]
                entries := (FilePath.parts path, ds.attempts.length) :: ds.entries }
      { ds' with attempts := ds'.attempts ++ [⟨path, .running⟩]
                 entries := (FilePath.parts path, ds'.attempts.length) :: ds'.entries } := by
    refine ⟨along.length, fun i c c' call call' => ?_, fun k a found samePath => ?_,
      fun k m a b foundA foundB pathA pathB equal => ?_, ?_, along.canceled⟩
    · -- No call refers to the attempt that is yet to come.
      rw [sound.rename_congr call before]
      exact along.calls i c c' call call'
    · obtain old | ⟨rfl, rfl⟩ := getElem?_concat_eq_some.1 found
      · rw [before k (getElem?_lt old)]
        exact getElem?_concat_eq_some.2 (.inl (along.attempts k a old samePath))
      · exact getElem?_concat_eq_some.2 (.inr ⟨last, rfl⟩)
    · obtain oldA | ⟨rfl, rfl⟩ := getElem?_concat_eq_some.1 foundA
      · obtain oldB | ⟨rfl, rfl⟩ := getElem?_concat_eq_some.1 foundB
        · rw [before k (getElem?_lt oldA), before m (getElem?_lt oldB)] at equal
          exact along.apart k m a b oldA oldB pathA pathB equal
        · rw [last] at equal
          exact absurd equal (bound k a oldA pathA).ne
      · obtain oldB | ⟨rfl, rfl⟩ := getElem?_concat_eq_some.1 foundB
        · rw [last] at equal
          exact absurd equal.symm (bound m b oldB pathB).ne
        · rfl
    · rw [here]
      simp [last]
  exact added.setPhase (.inl (by rw [CallPhase.rename, last]))

/-! ## Polls of the calls for the directory -/

/-- A call that is canceled in both or in neither moves on in both. -/
theorem Alongside.advance (along : Alongside silent p f ds ds') {phase : CallPhase}
    (known : ∀ k, phase = .creating k ∨ phase = .waiting k →
      ∃ a, ds.attempts[k]? = some a ∧ FilePath.parts a.path = p)
    (status : ds'.isCanceled c.token = ds.isCanceled c.token) (cancelFirst : Bool) (i : ℕ) :
    Alongside silent p f (ds.advance i c phase cancelFirst) (ds'.advance i c (phase.rename f) cancelFirst) := by
  cases phase with
  | fresh => exact along
  | ended o => exact along
  | creating k =>
    obtain ⟨a, attempt, here⟩ := known k (.inl rfl)
    have sameState : ds'.attemptState (f k) = ds.attemptState k := by
      rw [attemptState_eq attempt, attemptState_eq (along.attempts k a attempt here)]
    simp only [CallPhase.rename, Directories.advance, status, sameState]
    split_ifs
    · exact (along.abandon attempt here c.path).setPhase (.inl rfl)
    · exact (along.setAttempt attempt here .completed).setPhase (.inl rfl)
    · exact along
  | waiting k =>
    obtain ⟨a, attempt, here⟩ := known k (.inr rfl)
    have sameState : ds'.attemptState (f k) = ds.attemptState k := by
      rw [attemptState_eq attempt, attemptState_eq (along.attempts k a attempt here)]
    simp only [CallPhase.rename, Directories.advance, status, sameState]
    split_ifs
    · exact along.setPhase (.inl rfl)
    · exact along.setPhase (.inl rfl)
    · exact along.setPhase (.inl rfl)
    · exact along

theorem setPhase_self (call : ds.calls[i]? = some c) : ds.setPhase i c.phase = ds := by
  have same : ds.calls.modify i (fun d => { d with phase := c.phase }) = ds.calls := by
    refine List.ext_getElem? fun j => ?_
    by_cases here : i = j
    · subst here
      simp [call]
    · simp [here]
  rw [Directories.setPhase, same]

/-- An idle call stays idle. -/
theorem advance_idle {d : DirectoryCall} (call : ds.calls[i]? = some d) (idle : Idle d.phase) (c : DirectoryCall)
    (cancelFirst : Bool) :
    ∃ phase, Idle phase ∧ ds.advance i c d.phase cancelFirst = ds.setPhase i phase := by
  have advances := advances_advance ds i c d.phase cancelFirst
  generalize ds.advance i c d.phase cancelFirst = ds' at advances
  generalize now : d.phase = phase at advances idle
  cases advances with
  | stays => exact ⟨phase, idle, by rw [← now, setPhase_self call]⟩
  | abandons => exact nomatch idle
  | completes => exact nomatch idle
  | leaves => exact ⟨_, .ended _, rfl⟩
  | finds => exact ⟨_, .ended _, rfl⟩
  | released => exact ⟨_, .ended _, rfl⟩

/-- No call for the directory whose token is silent altogether is creating it. -/
def Spared (silent : ℕ → String → Prop) (p : FilePath.Parts) (ds : Directories) : Prop :=
  ∀ (i : ℕ) (c : DirectoryCall) (k : ℕ), ds.calls[i]? = some c → FilePath.parts c.path = p →
    c.phase = .creating k → ∃ j, ¬ silent j c.token

theorem Alongside.poll_idle (along : Alongside silent p f ds ds') (call : ds.calls[i]? = some c)
    (call' : ds'.calls[i]? = some c') (quiet : silent i c.token) (idle : Idle c.phase) (idle' : Idle c'.phase) :
    Alongside silent p f (ds.poll i cancelFirst) (ds'.poll i cancelFirst) := by
  have begun : c.phase ≠ .fresh := fun fresh => by
    rw [fresh] at idle
    exact nomatch idle
  have begun' : c'.phase ≠ .fresh := fun fresh => by
    rw [fresh] at idle'
    exact nomatch idle'
  obtain ⟨phase, still, polled⟩ := advance_idle call idle c cancelFirst
  obtain ⟨phase', still', polled'⟩ := advance_idle call' idle' c' cancelFirst
  rw [poll_eq_advance call begun, poll_eq_advance call' begun', polled, polled']
  refine along.setPhase (.inr ⟨fun d found => ?_, still, still'⟩)
  rw [call] at found
  obtain rfl := Option.some_inj.1 found
  exact quiet

theorem Alongside.poll_begun (along : Alongside silent p f ds ds') (sound : Sound ds owner)
    (call : ds.calls[i]? = some c) (call' : ds'.calls[i]? = some c') (here : FilePath.parts c.path = p)
    (status : ds'.isCanceled c.token = ds.isCanceled c.token) (begun : c.phase ≠ .fresh)
    (renamed : c'.phase = c.phase.rename f) :
    Alongside silent p f (ds.poll i cancelFirst) (ds'.poll i cancelFirst) := by
  obtain ⟨path, token, -⟩ := along.calls i c c' call call'
  have begun' : c'.phase ≠ .fresh := by
    rw [renamed]
    cases phase : c.phase with
    | fresh => exact absurd phase begun
    | _ => exact nofun
  rw [poll_eq_advance call begun, poll_eq_advance call' begun', advance_congr token.symm path.symm, renamed]
  refine along.advance ?_ status cancelFirst i
  intro k phase
  obtain creating | waiting := phase
  · obtain ⟨a, attempt, samePath, -⟩ := sound.creating_attempt call creating
    exact ⟨a, attempt, by rw [samePath, here]⟩
  · obtain ⟨a, attempt, samePath⟩ := sound.waited i c k call waiting
    exact ⟨a, attempt, samePath.trans here⟩

theorem Alongside.entry_eq (along : Alongside silent p f ds ds') (here : FilePath.parts c.path = p)
    (path : c'.path = c.path) {attempt : Option ℕ} (counts : ds.entry? c.path = attempt) :
    ds'.entry? c'.path = attempt.map f := by
  rw [entry_eq_lookup, here] at counts
  rw [entry_eq_lookup, path, here, along.entry, counts]

/-- A call that is canceled in both or in neither is polled in both. -/
theorem Alongside.poll_same (along : Alongside silent p f ds ds') (sound : Sound ds owner)
    (call : ds.calls[i]? = some c) (call' : ds'.calls[i]? = some c') (here : FilePath.parts c.path = p)
    (status : ds'.isCanceled c.token = ds.isCanceled c.token) :
    ∃ g, Alongside silent p g (ds.poll i cancelFirst) (ds'.poll i cancelFirst) := by
  obtain ⟨path, token, matching⟩ := along.calls i c c' call call'
  obtain renamed | ⟨quiet, idle, idle'⟩ := matching here
  · by_cases fresh : c.phase = .fresh
    · have fresh' : c'.phase = .fresh := by rw [renamed, fresh, CallPhase.rename]
      cases counts : ds.entry? c.path with
      | none =>
        have counts' := along.entry_eq here path counts
        rw [poll_of_begins call fresh counts, poll_of_begins call' fresh' counts', path]
        exact ⟨_, (along.begin sound here).poll_begun (sound.begins call fresh counts) (calls_begin_self call _)
          (calls_begin_self call' _) here status (by simp) (by simp [CallPhase.rename])⟩
      | some k =>
        have counts' := along.entry_eq here path counts
        rw [poll_of_waits call fresh counts, poll_of_waits call' fresh' counts']
        exact ⟨f, (along.setPhase (.inl rfl)).poll_begun (sound.move (.waits call fresh counts))
          (calls_setPhase_self ds call _) (calls_setPhase_self ds' call' _) here status (by simp) rfl⟩
    · exact ⟨f, along.poll_begun sound call call' here status fresh renamed⟩
  · exact ⟨f, along.poll_idle call call' quiet idle idle'⟩

/-- A silent call that is canceled only in the second state waits or ends in both. -/
theorem Alongside.poll_silent (along : Alongside silent p f ds ds') (call : ds.calls[i]? = some c)
    (call' : ds'.calls[i]? = some c') (here : FilePath.parts c.path = p) (off : ds.isCanceled c.token = false)
    (quiet : ∀ j, silent j c.token) (spared : Spared silent p ds) (spared' : Spared silent p (ds.poll i cancelFirst)) :
    Alongside silent p f (ds.poll i cancelFirst) (ds'.poll i cancelFirst) := by
  obtain ⟨path, token, matching⟩ := along.calls i c c' call call'
  obtain renamed | ⟨-, idle, idle'⟩ := matching here
  · cases phase : c.phase with
    | ended o =>
      rw [phase] at renamed
      exact along.poll_idle call call' (quiet i) (phase ▸ .ended o) (renamed ▸ .ended o)
    | waiting k =>
      rw [phase] at renamed
      exact along.poll_idle call call' (quiet i) (phase ▸ .waiting k) (renamed ▸ .waiting (f k))
    | creating k =>
      obtain ⟨j, loud⟩ := spared i c k call here phase
      exact absurd (quiet j) loud
    | fresh =>
      rw [phase] at renamed
      cases counts : ds.entry? c.path with
      | none =>
        have running : (ds.begin i c.path).attemptState ds.attempts.length = .running :=
          attemptState_eq (a := ⟨c.path, .running⟩) (getElem?_concat_eq_some.2 (.inr ⟨rfl, rfl⟩))
        have off' : (ds.begin i c.path).isCanceled c.token = false := off
        -- Being canceled in neither state, the call would be left creating, which `spared'` rules out.
        have begins : ds.poll i cancelFirst = ds.begin i c.path := by
          rw [poll_of_begins call phase counts, poll_eq_advance (calls_begin_self call _) (by simp)]
          simp [Directories.advance, running, off']
        rw [begins] at spared'
        obtain ⟨j, loud⟩ := spared' i _ _ (calls_begin_self call c.path) here rfl
        exact absurd (quiet j) loud
      | some k =>
        have counts' := along.entry_eq here path counts
        rw [poll_of_waits call phase counts, poll_of_waits call' renamed counts']
        exact (along.setPhase (.inl rfl)).poll_idle (calls_setPhase_self ds call _) (calls_setPhase_self ds' call' _)
          (quiet i) (.waiting k) (.waiting (f k))
  · exact along.poll_idle call call' (quiet i) idle idle'

theorem Alongside.elsewhere {ds₁ ds₁' : Directories} (along : Alongside silent p f ds ds')
    (first : Elsewhere p ds ds₁) (second : Elsewhere p ds' ds₁') : Alongside silent p f ds₁ ds₁' where
  length := by rw [first.length, second.length, along.length]
  calls i c c' call call' := by
    obtain ⟨d, found, path, token, phase⟩ := first.calls i c call
    obtain ⟨d', found', path', token', phase'⟩ := second.calls i c' call'
    obtain ⟨samePath, sameToken, matching⟩ := along.calls i d d' found found'
    refine ⟨by rw [path, path', samePath], by rw [token, token', sameToken], fun here => ?_⟩
    rw [path] at here
    rw [phase here, phase' (by rw [samePath, here]), token]
    exact matching here
  attempts k a found here :=
    (second.attempts (f k) a here).2 (along.attempts k a ((first.attempts k a here).1 found) here)
  apart k m a b foundA foundB hereA hereB :=
    along.apart k m a b ((first.attempts k a hereA).1 foundA) ((first.attempts m b hereB).1 foundB) hereA hereB
  entry := by rw [first.entry, second.entry, along.entry]
  canceled token := by
    simp only [isCanceled, first.canceled, second.canceled]
    exact along.canceled token

/-! ## Courses of events alongside each other -/

theorem Alongside.no_call (along : Alongside silent p f ds ds') (call : ds.calls[i]? = none) :
    ds'.calls[i]? = none := by
  rw [List.getElem?_eq_none_iff] at call ⊢
  rwa [along.length]

theorem Alongside.poll (along : Alongside silent p f ds ds') (sound : Sound ds owner) (sound' : Sound ds' owner')
    (spared : Spared silent p ds) (spared' : Spared silent p (ds.poll i cancelFirst)) :
    ∃ g, Alongside silent p g (ds.poll i cancelFirst) (ds'.poll i cancelFirst) := by
  cases call : ds.calls[i]? with
  | none =>
    rw [poll_none call, poll_none (along.no_call call)]
    exact ⟨f, along⟩
  | some c =>
    obtain ⟨c', call'⟩ := along.exists_call call
    by_cases here : FilePath.parts c.path = p
    · obtain status | ⟨off, quiet⟩ := along.canceled c.token
      · exact along.poll_same sound call call' here status
      · exact ⟨f, along.poll_silent call call' here off quiet spared spared'⟩
    · have here' : FilePath.parts c'.path ≠ p := by rwa [(along.calls i c c' call call').1]
      exact ⟨f, along.elsewhere (sound.elsewhere_poll call here) (sound'.elsewhere_poll call' here')⟩

theorem drop_idle (call : ds.calls[i]? = some c) (idle : Idle c.phase) :
    ∃ phase, Idle phase ∧ ds.drop i = ds.setPhase i phase := by
  simp only [Directories.drop, call]
  cases phase : c.phase with
  | fresh =>
    rw [phase] at idle
    cases idle
  | creating k =>
    rw [phase] at idle
    cases idle
  | waiting k => exact ⟨_, .ended _, rfl⟩
  | ended o =>
    have same := setPhase_self call
    rw [phase] at same
    exact ⟨_, .ended o, same.symm⟩

theorem Alongside.drop (along : Alongside silent p f ds ds') (sound : Sound ds owner) (sound' : Sound ds' owner') :
    Alongside silent p f (ds.drop i) (ds'.drop i) := by
  cases call : ds.calls[i]? with
  | none =>
    rw [drop_none call, drop_none (along.no_call call)]
    exact along
  | some c =>
    obtain ⟨c', call'⟩ := along.exists_call call
    obtain ⟨path, token, matching⟩ := along.calls i c c' call call'
    by_cases here : FilePath.parts c.path = p
    · obtain renamed | ⟨quiet, idle, idle'⟩ := matching here
      · simp only [Directories.drop, call, call', renamed, path]
        cases phase : c.phase with
        | fresh => exact along.setPhase (.inl rfl)
        | waiting k => exact along.setPhase (.inl rfl)
        | ended o => exact along
        | creating k =>
          obtain ⟨a, attempt, samePath, -⟩ := sound.creating_attempt call phase
          exact (along.abandon attempt (by rw [samePath, here]) c.path).setPhase (.inl rfl)
      · obtain ⟨phase, still, dropped⟩ := drop_idle call idle
        obtain ⟨phase', still', dropped'⟩ := drop_idle call' idle'
        rw [dropped, dropped']
        refine along.setPhase (.inr ⟨fun d found => ?_, still, still'⟩)
        rw [call] at found
        obtain rfl := Option.some_inj.1 found
        exact quiet
    · have here' : FilePath.parts c'.path ≠ p := by rwa [path]
      exact along.elsewhere (sound.elsewhere_drop call here) (sound'.elsewhere_drop call' here')

theorem getElem?_returnCreations (ds : Directories) (path : String) (k : ℕ) :
    (ds.returnCreations path).attempts[k]? = ds.attempts[k]?.map fun a =>
      if a.path == path && a.state == .running then { a with state := .returned } else a :=
  List.getElem?_map ..

theorem Alongside.returnCreations (along : Alongside silent p f ds ds') (path : String) :
    Alongside silent p f (ds.returnCreations path) (ds'.returnCreations path) where
  length := along.length
  calls := along.calls
  attempts k b found here := by
    obtain ⟨a, attempt, samePath, -⟩ := exists_of_returned found
    rw [getElem?_returnCreations, attempt] at found
    rw [getElem?_returnCreations, along.attempts k a attempt (by rw [← samePath, here])]
    exact found
  apart k m a b foundA foundB hereA hereB := by
    obtain ⟨a', before, pathA, -⟩ := exists_of_returned foundA
    obtain ⟨b', before', pathB, -⟩ := exists_of_returned foundB
    exact along.apart k m a' b' before before' (by rw [← pathA, hereA]) (by rw [← pathB, hereB])
  entry := along.entry
  canceled := along.canceled

theorem Alongside.called (along : Alongside silent p f ds ds') (path token : String) :
    Alongside silent p f { ds with calls := ds.calls ++ [⟨path, token, .fresh⟩] }
      { ds' with calls := ds'.calls ++ [⟨path, token, .fresh⟩] } where
  length := by simp [along.length]
  calls i c c' call call' := by
    obtain old | ⟨rfl, rfl⟩ := getElem?_concat_eq_some.1 call
    · obtain old' | ⟨rfl, rfl⟩ := getElem?_concat_eq_some.1 call'
      · exact along.calls i c c' old old'
      · exact absurd (getElem?_lt old) (by rw [along.length]; exact lt_irrefl _)
    · obtain old' | ⟨-, rfl⟩ := getElem?_concat_eq_some.1 call'
      · exact absurd (getElem?_lt old') (by rw [along.length]; exact lt_irrefl _)
      · exact ⟨rfl, rfl, fun _ => .inl rfl⟩
  attempts := along.attempts
  apart := along.apart
  entry := along.entry
  canceled := along.canceled

theorem Alongside.cancel (along : Alongside silent p f ds ds') (token : String) :
    Alongside silent p f (ds.step (.cancel token)) (ds'.step (.cancel token)) := by
  have canceled : ∀ other, (ds'.step (.cancel token)).isCanceled other = (ds.step (.cancel token)).isCanceled other ∨
      (ds.step (.cancel token)).isCanceled other = false ∧ ∀ i, silent i other := by
    intro other
    rw [isCanceled_step, isCanceled_step]
    obtain same | ⟨off, quiet⟩ := along.canceled other
    · exact .inl (by rw [same])
    · cases other == token with
      | true => exact .inl rfl
      | false => exact .inr ⟨off, quiet⟩
  rw [step_cancel, step_cancel] at canceled ⊢
  exact { along with canceled }

/-- An event keeps two states alongside each other. -/
theorem Alongside.step (along : Alongside silent p f ds ds') (sound : Sound ds owner) (sound' : Sound ds' owner')
    {e : DirectoryEvent} (spared : Spared silent p ds) (spared' : Spared silent p (ds.step e)) :
    ∃ g, Alongside silent p g (ds.step e) (ds'.step e) := by
  cases e with
  | call path token => exact ⟨f, along.called path token⟩
  | poll i cancelFirst => exact along.poll sound sound' spared spared'
  | creationReturns path => exact ⟨f, along.returnCreations path⟩
  | cancel token => exact ⟨f, along.cancel token⟩
  | drop i => exact ⟨f, along.drop sound sound'⟩

/-- So do events one after the other. -/
theorem Alongside.run (along : Alongside silent p f ds ds') (sound : Sound ds owner) (sound' : Sound ds' owner')
    (events : List DirectoryEvent) (spared : ∀ before, before <+: events → Spared silent p (ds.run before)) :
    ∃ g, Alongside silent p g (ds.run events) (ds'.run events) := by
  induction events generalizing ds ds' owner owner' f with
  | nil => exact ⟨f, along⟩
  | cons e events ih =>
    have now := spared [] List.nil_prefix
    have next := spared [e] ⟨events, rfl⟩
    obtain ⟨g, along'⟩ := along.step sound sound' now next
    exact ih along' (sound.step e) (sound'.step e) fun before initial =>
      spared (e :: before) (List.cons_prefix_cons.2 ⟨rfl, initial⟩)

/-- Calls that are not silent end in the same way. -/
theorem Alongside.outcome? (along : Alongside silent p f ds ds') (call : ds.calls[i]? = some c)
    (here : FilePath.parts c.path = p) (loud : ¬ silent i c.token) : ds'.outcome? i = ds.outcome? i := by
  obtain ⟨c', call'⟩ := along.exists_call call
  obtain renamed | ⟨quiet, -⟩ := (along.calls i c c' call call').2.2 here
  · simp [Directories.outcome?, call, call', renamed]
  · exact absurd quiet loud

end Directories

end Folio
