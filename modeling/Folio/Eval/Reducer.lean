import Folio.Fault
import Folio.Locale
import Folio.Scope.Basic

/-!
# Evaluation, from the outside

What the parts of the evaluator need of one another.  An `Evaluator` evaluates
expressions and writes values out; entries and functions are given one to evaluate
what they hold.  An evaluation has three outcomes: a value, a fault, or neither, when it
goes deeper than allowed.

All of it is written for scopes of any kind and for evaluations that may do something to
them.  A `Reducer` is what runs: its scopes are chains, and nothing is done to them.
-/

namespace Folio

/-- An evaluation: nothing if it did not come to an end, else a fault or a result. -/
abbrev Eval := ExceptT Fault Option

def Eval.unfinished {α : Type} : Eval α :=
  ExceptT.mk none

def Eval.ofExcept {α : Type} (outcome : Except Fault α) : Eval α :=
  ExceptT.mk (some outcome)

def Eval.fail {α : Type} (fault : Fault) : Eval α :=
  Eval.ofExcept (.error fault)

/-- How evaluations see the scopes they are given, and how they make others. -/
class Scoping (m : Type → Type) (σ : outParam Type) where
  /-- An evaluation that has nothing to do with scopes. -/
  lift {α : Type} : Eval α → m α
  /-- The chain that a scope is at this moment. -/
  seen : σ → m Scope
  /-- The scope inside another in which a document's own fields are bound. -/
  inside : Document → σ → m σ
  /-- The scope inside another in which one name is bound. -/
  binding : String → Expr → σ → m σ

structure Evaluator (m : Type → Type) (σ : Type) where
  /-- The work has been canceled: nothing is called any more. -/
  canceled : Bool
  /-- The value of an expression in a scope. -/
  reduce : Expr → σ → m Value
  /-- The text of a value in a scope, in the given locale. -/
  write : Locale → Value → σ → m String

/-- The evaluator that runs, with chains of scopes. -/
abbrev Reducer := Evaluator Eval Scope

namespace Evaluator

variable {m : Type → Type} {σ : Type} [Monad m] [Scoping m σ]

def checkCanceled (r : Evaluator m σ) : m Unit :=
  if r.canceled then Scoping.lift (Eval.fail .canceled) else pure ()

/-- The values of the expressions, in order.  The first fault in that order counts. -/
def reduceAll (r : Evaluator m σ) : List Expr → σ → m (List Value)
  | [], _ => pure []
  | e :: es, s => do
    let v ← r.reduce e s
    let vs ← r.reduceAll es s
    pure (v :: vs)

/-- The value of a name, or nothing if no scope binds the name. -/
def reduceBound? (r : Evaluator m σ) (name : String) (s : σ) : m (Option Value) := do
  let chain ← Scoping.seen s
  match chain.lookup name with
  | some _ => do
    let v ← r.reduce (.variable name) s
    pure (some v)
  | none => pure none

/-- The locale of a scope: the language that `lang` stands for. -/
def locale (r : Evaluator m σ) (s : σ) : m Locale := do
  match ← r.reduceBound? "lang" s with
  | some (.str lang) => pure ⟨lang⟩
  | _ => pure .invariant

def writeIn (r : Evaluator m σ) (v : Value) (s : σ) : m String := do
  let locale ← r.locale s
  r.write locale v s

def reduceToText (r : Evaluator m σ) (e : Expr) (s : σ) : m String := do
  let v ← r.reduce e s
  r.writeIn v s

end Evaluator

/-- The functions that run behind the callables. -/
structure Tools (m : Type → Type) (σ : Type) where
  deferred : Callable → Evaluator m σ → List Expr → σ → m Expr
  contextual : Callable → (String → Option Value) → Locale → List Value → Except Fault Value
  strict : Callable → List Value → Except Fault Value

abbrev Toolbox := Tools Eval Scope

end Folio
