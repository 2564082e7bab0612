import Folio.FilePath

/-!
# Directories made once

Many files in one directory ask for it at once.  The first call for a directory makes an
attempt to create it, and the others wait for that attempt.  An attempt that completes,
with success or not, settles the directory for good: who writes there will see what is
wrong.  An attempt whose own call is canceled or given up is abandoned: the calls that
wait for it are canceled with it, and the next call begins anew.

Calls make progress only when they are polled, in any order.  Where a call could end in
two ways at once, the poll says whether its cancellation is seen first.
-/

namespace Folio

inductive AttemptState where
  /-- The creation has not come back. -/
  | running
  /-- The creation has come back, but the call has not been polled since. -/
  | returned
  /-- The call has seen that the creation came back. -/
  | completed
  /-- The call ended before it saw that. -/
  | abandoned
  deriving DecidableEq, Repr, Inhabited

structure Attempt where
  path : String
  state : AttemptState
  deriving DecidableEq, Repr, Inhabited

inductive CallOutcome where
  | done
  | canceled
  /-- Whoever called does not want to know any more. -/
  | dropped
  deriving DecidableEq, Repr, Inhabited

/-- What a call is at.  Attempts are known by their number. -/
inductive CallPhase where
  /-- It has not been polled. -/
  | fresh
  | creating (attempt : Nat)
  | waiting (attempt : Nat)
  | ended (outcome : CallOutcome)
  deriving DecidableEq, Repr, Inhabited

/-- A call for a directory, and the token by which it can be canceled. -/
structure DirectoryCall where
  path : String
  token : String
  phase : CallPhase
  deriving DecidableEq, Repr, Inhabited

/-- All calls for directories and the attempts made for them. -/
structure Directories where
  /-- The calls, in the order in which they were made. -/
  calls : List DirectoryCall
  /-- The attempts, in the order in which they were begun. -/
  attempts : List Attempt
  /-- The attempt that counts for a directory. -/
  entries : List (FilePath.Parts × Nat)
  /-- The tokens that are canceled. -/
  canceled : List String
  deriving DecidableEq, Repr, Inhabited

inductive DirectoryEvent where
  | call (path token : String)
  /-- The call with this number is polled. -/
  | poll (call : Nat) (cancelFirst : Bool)
  /-- Every creation of the path comes back. -/
  | creationReturns (path : String)
  | cancel (token : String)
  /-- Whoever made the call drops it. -/
  | drop (call : Nat)
  deriving DecidableEq, Repr

namespace Directories

def empty : Directories :=
  ⟨[], [], [], []⟩

def entry? (ds : Directories) (path : String) : Option Nat :=
  ds.entries.lookup (FilePath.parts path)

def attemptState (ds : Directories) (attempt : Nat) : AttemptState :=
  match ds.attempts[attempt]? with
  | some a => a.state
  | none => .abandoned

def setPhase (ds : Directories) (call : Nat) (phase : CallPhase) : Directories :=
  { ds with calls := ds.calls.modify call fun c => { c with phase } }

def setAttempt (ds : Directories) (attempt : Nat) (state : AttemptState) : Directories :=
  { ds with attempts := ds.attempts.modify attempt fun a => { a with state } }

/-- Abandons the attempt of a call: the directory has none any more. -/
def abandon (ds : Directories) (path : String) (attempt : Nat) : Directories :=
  { ds.setAttempt attempt .abandoned with
    entries := ds.entries.filter fun e => e.1 != FilePath.parts path }

def isCanceled (ds : Directories) (token : String) : Bool :=
  ds.canceled.contains token

/-- The call waits for the attempt that counts for its directory, or begins one. -/
def start (ds : Directories) (call : Nat) (path : String) : Directories × CallPhase :=
  match ds.entry? path with
  | some attempt => (ds.setPhase call (.waiting attempt), .waiting attempt)
  | none =>
    let attempt := ds.attempts.length
    let begun :=
      { ds with
        attempts := ds.attempts ++ [Attempt.mk path .running]
        entries := (FilePath.parts path, attempt) :: ds.entries }
    (begun.setPhase call (.creating attempt), .creating attempt)

def advance (ds : Directories) (call : Nat) (c : DirectoryCall) (phase : CallPhase)
    (cancelFirst : Bool) : Directories :=
  let canceled := ds.isCanceled c.token
  match phase with
  | .creating attempt =>
    let returned := ds.attemptState attempt == .returned
    if canceled && (cancelFirst || !returned) then
      (ds.abandon c.path attempt).setPhase call (.ended .canceled)
    else if returned then
      (ds.setAttempt attempt .completed).setPhase call (.ended .done)
    else ds
  | .waiting attempt =>
    let state := ds.attemptState attempt
    let ready := state == .completed || state == .abandoned
    if canceled && (cancelFirst || !ready) then ds.setPhase call (.ended .canceled)
    else if state == .completed then ds.setPhase call (.ended .done)
    else if state == .abandoned then ds.setPhase call (.ended .canceled)
    else ds
  | .fresh => ds
  | .ended _ => ds

def poll (ds : Directories) (call : Nat) (cancelFirst : Bool) : Directories :=
  match ds.calls[call]? with
  | none => ds
  | some c =>
    match c.phase with
    | .fresh =>
      let (started, phase) := ds.start call c.path
      started.advance call c phase cancelFirst
    | phase => ds.advance call c phase cancelFirst

def drop (ds : Directories) (call : Nat) : Directories :=
  match ds.calls[call]? with
  | none => ds
  | some c =>
    match c.phase with
    | .fresh => ds.setPhase call (.ended .dropped)
    | .creating attempt => (ds.abandon c.path attempt).setPhase call (.ended .dropped)
    | .waiting _ => ds.setPhase call (.ended .dropped)
    | .ended _ => ds

/-- Lets every running creation of the path come back. -/
def returnCreations (ds : Directories) (path : String) : Directories :=
  { ds with
    attempts := ds.attempts.map fun a =>
      if a.path == path && a.state == .running then { a with state := .returned } else a }

def step (ds : Directories) : DirectoryEvent → Directories
  | .call path token => { ds with calls := ds.calls ++ [⟨path, token, .fresh⟩] }
  | .poll call cancelFirst => ds.poll call cancelFirst
  | .creationReturns path => ds.returnCreations path
  | .cancel token =>
    if ds.isCanceled token then ds else { ds with canceled := token :: ds.canceled }
  | .drop call => ds.drop call

def run (ds : Directories) (events : List DirectoryEvent) : Directories :=
  events.foldl step ds

def pollRound (ds : Directories) : Directories :=
  (List.range ds.calls.length).foldl (fun ds call => ds.poll call true) ds

/-- Polls the calls round by round until nothing more happens; every round but the last ends
a call. -/
def settle (ds : Directories) : Directories :=
  (List.range (ds.calls.length + 1)).foldl (fun ds _ => ds.pollRound) ds

def attemptCount (ds : Directories) (path : String) : Nat :=
  ds.attempts.countP fun a => a.path == path

end Directories

end Folio
