import Folio.Directories
import Mathlib.Tactic
import Mathlib.Logic.Relation

/-!
# Moves of a call

What an event does to the calls for directories is made of moves: a call begins an
attempt, waits for one, or ends for one reason.  A poll of a call that has not been polled
before makes up to two moves, every other event at most one.  Invariants are proved for
the moves.

Main statement: `moves_step`.
-/

namespace Folio

def DirectoryEvent.subject : DirectoryEvent → ℕ
  | .poll i _ => i
  | .drop i => i
  | .call _ _ | .creationReturns _ | .cancel _ => 0

namespace Directories

variable {ds : Directories} {i j k : ℕ} {c : DirectoryCall}

/-! ## What the changes leave alone -/

@[simp] theorem setPhase_attempts (ds : Directories) (i : ℕ) (phase : CallPhase) :
    (ds.setPhase i phase).attempts = ds.attempts := rfl

@[simp] theorem abandon_attempts (ds : Directories) (path : String) (k : ℕ) :
    (ds.abandon path k).attempts = (ds.setAttempt k .abandoned).attempts := rfl

@[simp] theorem returnCreations_entries (ds : Directories) (path : String) :
    (ds.returnCreations path).entries = ds.entries := rfl

theorem calls_setPhase_self (ds : Directories) (call : ds.calls[i]? = some c) (phase : CallPhase) :
    (ds.setPhase i phase).calls[i]? = some { c with phase } := by
  simp [setPhase, call]

theorem calls_setPhase_other (other : j ≠ i) (phase : CallPhase) :
    (ds.setPhase i phase).calls[j]? = ds.calls[j]? := by
  simp only [setPhase, List.getElem?_modify, if_neg other.symm]
  simp

theorem exists_of_setPhase {phase : CallPhase} (found : (ds.setPhase i phase).calls[i]? = some c) :
    ∃ d, ds.calls[i]? = some d ∧ c = { d with phase } := by
  cases call : ds.calls[i]? with
  | none => simp [Directories.setPhase, call] at found
  | some d =>
    rw [calls_setPhase_self ds call] at found
    exact ⟨d, rfl, (Option.some_inj.1 found).symm⟩

theorem attempts_setAttempt_self {a : Attempt} (attempt : ds.attempts[k]? = some a) (state : AttemptState) :
    (ds.setAttempt k state).attempts[k]? = some { a with state } := by
  simp [setAttempt, attempt]

theorem attempts_setAttempt_other {m : ℕ} (other : m ≠ k) (state : AttemptState) :
    (ds.setAttempt k state).attempts[m]? = ds.attempts[m]? := by
  simp only [setAttempt, List.getElem?_modify, if_neg other.symm]
  simp

theorem exists_of_setAttempt {a : Attempt} {m : ℕ} {state : AttemptState}
    (found : (ds.setAttempt k state).attempts[m]? = some a) : ∃ b, ds.attempts[m]? = some b ∧ a.path = b.path := by
  simp only [setAttempt, List.getElem?_modify] at found
  obtain ⟨b, attempt, rfl⟩ := Option.map_eq_some_iff.1 found
  refine ⟨b, attempt, ?_⟩
  split_ifs <;> rfl

@[simp] theorem length_setAttempt (ds : Directories) (k : ℕ) (state : AttemptState) :
    (ds.setAttempt k state).attempts.length = ds.attempts.length := by
  simp [setAttempt]

@[simp] theorem length_returnCreations (ds : Directories) (path : String) :
    (ds.returnCreations path).attempts.length = ds.attempts.length := by
  simp [returnCreations]

theorem attemptState_eq {a : Attempt} (attempt : ds.attempts[k]? = some a) : ds.attemptState k = a.state := by
  simp [attemptState, attempt]

theorem lookup_filter_ne {entries : List (FilePath.Parts × ℕ)} (p q : FilePath.Parts) :
    (entries.filter fun e => e.1 != q).lookup p = if p = q then none else entries.lookup p := by
  induction entries with
  | nil => simp
  | cons e entries ih =>
    by_cases here : e.1 = q
    · rw [List.filter_cons_of_neg (by simp [here]), ih]
      split
      · rfl
      · rename_i other
        rw [List.lookup_cons, show (p == e.1) = false by simpa [here] using other]
    · rw [List.filter_cons_of_pos (by simp [here]), List.lookup_cons, List.lookup_cons, ih]
      cases same : p == e.1 with
      | true =>
        have apart : p ≠ q := fun equal => here ((beq_iff_eq.1 same).symm.trans equal)
        simp [apart]
      | false => rfl

/-! ## Moves -/

/-- The call begins an attempt to create its directory. -/
def begin (ds : Directories) (i : ℕ) (path : String) : Directories :=
  let begun : Directories :=
    { ds with
      attempts := ds.attempts ++ [⟨path, .running⟩]
      entries := (FilePath.parts path, ds.attempts.length) :: ds.entries }
  begun.setPhase i (.creating ds.attempts.length)

theorem calls_begin_self (call : ds.calls[i]? = some c) (path : String) :
    (ds.begin i path).calls[i]? = some { c with phase := .creating ds.attempts.length } :=
  calls_setPhase_self ⟨ds.calls, _, _, _⟩ call _

theorem calls_begin_other (other : j ≠ i) (path : String) : (ds.begin i path).calls[j]? = ds.calls[j]? :=
  calls_setPhase_other other _

@[simp] theorem attempts_begin (ds : Directories) (i : ℕ) (path : String) :
    (ds.begin i path).attempts = ds.attempts ++ [⟨path, .running⟩] := rfl

/-- What can happen at once, where only the call `i` can move. -/
inductive Move (i : ℕ) : Directories → Directories → Prop where
  | called {ds : Directories} (path token : String) :
      Move i ds { ds with calls := ds.calls ++ [⟨path, token, .fresh⟩] }
  | waits {ds : Directories} {c : DirectoryCall} {k : ℕ} (call : ds.calls[i]? = some c) (fresh : c.phase = .fresh)
      (counts : ds.entry? c.path = some k) : Move i ds (ds.setPhase i (.waiting k))
  | begins {ds : Directories} {c : DirectoryCall} (call : ds.calls[i]? = some c) (fresh : c.phase = .fresh)
      (free : ds.entry? c.path = none) : Move i ds (ds.begin i c.path)
  | completes {ds : Directories} {c : DirectoryCall} {k : ℕ} (call : ds.calls[i]? = some c)
      (creating : c.phase = .creating k) (returned : ds.attemptState k = .returned) :
      Move i ds ((ds.setAttempt k .completed).setPhase i (.ended .done))
  | abandons {ds : Directories} {c : DirectoryCall} {k : ℕ} {o : CallOutcome} (call : ds.calls[i]? = some c)
      (creating : c.phase = .creating k)
      (reason : o = .canceled ∧ ds.isCanceled c.token = true ∨ o = .dropped) :
      Move i ds ((ds.abandon c.path k).setPhase i (.ended o))
  | finds {ds : Directories} {c : DirectoryCall} {k : ℕ} (call : ds.calls[i]? = some c)
      (waiting : c.phase = .waiting k) (completed : ds.attemptState k = .completed) :
      Move i ds (ds.setPhase i (.ended .done))
  | released {ds : Directories} {c : DirectoryCall} {k : ℕ} (call : ds.calls[i]? = some c)
      (waiting : c.phase = .waiting k) (abandoned : ds.attemptState k = .abandoned) :
      Move i ds (ds.setPhase i (.ended .canceled))
  | leaves {ds : Directories} {c : DirectoryCall} {o : CallOutcome} (call : ds.calls[i]? = some c)
      (idle : c.phase = .fresh ∨ ∃ k, c.phase = .waiting k)
      (reason : o = .canceled ∧ ds.isCanceled c.token = true ∨ o = .dropped) :
      Move i ds (ds.setPhase i (.ended o))
  | returns {ds : Directories} (path : String) : Move i ds (ds.returnCreations path)
  | cancels {ds : Directories} (token : String) : Move i ds { ds with canceled := token :: ds.canceled }

/-- What a call that has begun can do. -/
inductive Advances (ds : Directories) (i : ℕ) (c : DirectoryCall) : CallPhase → Directories → Prop where
  | stays (phase : CallPhase) : Advances ds i c phase ds
  | abandons {k : ℕ} (canceled : ds.isCanceled c.token = true) :
      Advances ds i c (.creating k) ((ds.abandon c.path k).setPhase i (.ended .canceled))
  | completes {k : ℕ} (returned : ds.attemptState k = .returned) :
      Advances ds i c (.creating k) ((ds.setAttempt k .completed).setPhase i (.ended .done))
  | leaves {k : ℕ} (canceled : ds.isCanceled c.token = true) :
      Advances ds i c (.waiting k) (ds.setPhase i (.ended .canceled))
  | finds {k : ℕ} (completed : ds.attemptState k = .completed) :
      Advances ds i c (.waiting k) (ds.setPhase i (.ended .done))
  | released {k : ℕ} (abandoned : ds.attemptState k = .abandoned) :
      Advances ds i c (.waiting k) (ds.setPhase i (.ended .canceled))

theorem advances_advance (ds : Directories) (i : ℕ) (c : DirectoryCall) (phase : CallPhase) (cancelFirst : Bool) :
    Advances ds i c phase (ds.advance i c phase cancelFirst) := by
  unfold advance
  cases phase with
  | fresh => exact .stays _
  | ended o => exact .stays _
  | creating k =>
    simp only
    split_ifs with canceled returned
    · simp only [Bool.and_eq_true] at canceled
      exact .abandons canceled.1
    · exact .completes (beq_iff_eq.1 returned)
    · exact .stays _
  | waiting k =>
    simp only
    split_ifs with canceled completed abandoned
    · simp only [Bool.and_eq_true] at canceled
      exact .leaves canceled.1
    · exact .finds (beq_iff_eq.1 completed)
    · exact .released (beq_iff_eq.1 abandoned)
    · exact .stays _

theorem moves_advance (call : ds.calls[i]? = some c) (cancelFirst : Bool) :
    Relation.ReflTransGen (Move i) ds (ds.advance i c c.phase cancelFirst) := by
  have advances := advances_advance ds i c c.phase cancelFirst
  generalize ds.advance i c c.phase cancelFirst = ds' at advances
  generalize phase : c.phase = now at advances
  cases advances with
  | stays => exact .refl
  | abandons canceled => exact .single (.abandons call phase (.inl ⟨rfl, canceled⟩))
  | completes returned => exact .single (.completes call phase returned)
  | leaves canceled => exact .single (.leaves call (.inr ⟨_, phase⟩) (.inl ⟨rfl, canceled⟩))
  | finds completed => exact .single (.finds call phase completed)
  | released abandoned => exact .single (.released call phase abandoned)

theorem entry_eq_lookup (ds : Directories) (path : String) :
    ds.entry? path = ds.entries.lookup (FilePath.parts path) := rfl

theorem advance_congr {d : DirectoryCall} (token : d.token = c.token) (path : d.path = c.path) (phase : CallPhase)
    (cancelFirst : Bool) : ds.advance i c phase cancelFirst = ds.advance i d phase cancelFirst := by
  simp only [advance, token, path]

/-! ## Polls -/

theorem poll_none (call : ds.calls[i]? = none) (cancelFirst : Bool) : ds.poll i cancelFirst = ds := by
  simp only [poll, call]

theorem poll_eq_advance (call : ds.calls[i]? = some c) (begun : c.phase ≠ .fresh) (cancelFirst : Bool) :
    ds.poll i cancelFirst = ds.advance i c c.phase cancelFirst := by
  simp only [poll, call]

/-- The first poll of a call is the poll of the call as it waits for what counts, -/
theorem poll_of_waits (call : ds.calls[i]? = some c) (fresh : c.phase = .fresh) (counts : ds.entry? c.path = some k)
    (cancelFirst : Bool) : ds.poll i cancelFirst = (ds.setPhase i (.waiting k)).poll i cancelFirst := by
  rw [poll_eq_advance (calls_setPhase_self ds call _) (by simp)]
  simp only [poll, call, fresh, start, counts]
  exact advance_congr rfl rfl _ _

/-- or as it creates, where nothing counts. -/
theorem poll_of_begins (call : ds.calls[i]? = some c) (fresh : c.phase = .fresh) (free : ds.entry? c.path = none)
    (cancelFirst : Bool) : ds.poll i cancelFirst = (ds.begin i c.path).poll i cancelFirst := by
  rw [poll_eq_advance (calls_begin_self call _) (by simp)]
  simp only [poll, call, fresh, start, free]
  exact advance_congr rfl rfl _ _

/-- How a poll starts: the state and the call before the call moves on. -/
inductive Starts (ds : Directories) (i : ℕ) (c : DirectoryCall) : Directories → DirectoryCall → Prop where
  | goesOn (begun : c.phase ≠ .fresh) : Starts ds i c ds c
  | waits {k : ℕ} (fresh : c.phase = .fresh) (counts : ds.entry? c.path = some k) :
      Starts ds i c (ds.setPhase i (.waiting k)) { c with phase := .waiting k }
  | begins (fresh : c.phase = .fresh) (free : ds.entry? c.path = none) :
      Starts ds i c (ds.begin i c.path) { c with phase := .creating ds.attempts.length }

theorem Starts.call {ds₁ : Directories} {d : DirectoryCall} (starts : Starts ds i c ds₁ d)
    (call : ds.calls[i]? = some c) : ds₁.calls[i]? = some d := by
  cases starts with
  | goesOn => exact call
  | waits => exact calls_setPhase_self ds call _
  | begins => exact calls_begin_self call _

theorem Starts.moves {ds₁ : Directories} {d : DirectoryCall} (starts : Starts ds i c ds₁ d)
    (call : ds.calls[i]? = some c) : Relation.ReflTransGen (Move i) ds ds₁ := by
  cases starts with
  | goesOn => exact .refl
  | waits fresh counts => exact .single (.waits call fresh counts)
  | begins fresh free => exact .single (.begins call fresh free)

/-- A poll starts and moves the call on. -/
theorem exists_starts (call : ds.calls[i]? = some c) (cancelFirst : Bool) :
    ∃ ds₁ d, Starts ds i c ds₁ d ∧ ds.poll i cancelFirst = ds₁.advance i d d.phase cancelFirst := by
  by_cases fresh : c.phase = .fresh
  · cases counts : ds.entry? c.path with
    | none =>
      refine ⟨_, _, .begins fresh counts, ?_⟩
      rw [poll_of_begins call fresh counts, poll_eq_advance (calls_begin_self call _) (by simp)]
    | some k =>
      refine ⟨_, _, .waits fresh counts, ?_⟩
      rw [poll_of_waits call fresh counts, poll_eq_advance (calls_setPhase_self ds call _) (by simp)]
  · exact ⟨ds, c, .goesOn fresh, poll_eq_advance call fresh cancelFirst⟩

theorem moves_poll (ds : Directories) (i : ℕ) (cancelFirst : Bool) :
    Relation.ReflTransGen (Move i) ds (ds.poll i cancelFirst) := by
  cases call : ds.calls[i]? with
  | none =>
    rw [poll_none call]
  | some c =>
    obtain ⟨ds₁, d, starts, polled⟩ := exists_starts call cancelFirst
    rw [polled]
    exact (starts.moves call).trans (moves_advance (starts.call call) cancelFirst)

theorem moves_drop (ds : Directories) (i : ℕ) : Relation.ReflTransGen (Move i) ds (ds.drop i) := by
  unfold drop
  cases call : ds.calls[i]? with
  | none => exact .refl
  | some c =>
    simp only
    cases phase : c.phase with
    | fresh => exact .single (.leaves call (.inl phase) (.inr rfl))
    | creating k => exact .single (.abandons call phase (.inr rfl))
    | waiting k => exact .single (.leaves call (.inr ⟨k, phase⟩) (.inr rfl))
    | ended o => exact .refl

/-- An event makes moves of the call that it is about. -/
theorem moves_step (ds : Directories) (e : DirectoryEvent) :
    Relation.ReflTransGen (Move e.subject) ds (ds.step e) := by
  cases e with
  | call path token => exact .single (.called path token)
  | poll i cancelFirst => exact moves_poll ds i cancelFirst
  | creationReturns path => exact .single (.returns path)
  | cancel token =>
    simp only [step]
    split_ifs
    · exact .refl
    · exact .single (.cancels token)
  | drop i => exact moves_drop ds i

end Directories

end Folio
