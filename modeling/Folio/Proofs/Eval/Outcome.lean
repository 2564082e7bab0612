import Folio.Eval.Machine
import Mathlib.Tactic

/-!
# Outcomes of evaluations

An evaluation made of two comes to a value if the first does and the second does with that
value.  It fails if one of them does.
-/

namespace Folio

/-! ## Chains of scopes -/

namespace Scoping

variable {α : Type}

@[simp] theorem lift_eq (x : Eval α) : (lift x : Eval α) = x := rfl

@[simp] theorem seen_bind (s : Scope) (f : Scope → Eval α) : (seen s : Eval Scope) >>= f = f s := rfl

@[simp] theorem inside_bind (d : Document) (s : Scope) (f : Scope → Eval α) :
    (inside d s : Eval Scope) >>= f = f (d.scope s) := rfl

@[simp] theorem binding_bind (name : String) (e : Expr) (s : Scope) (f : Scope → Eval α) :
    (binding name e s : Eval Scope) >>= f = f (s.spawn.set name e) := rfl

end Scoping

/-! ## How evaluations end -/

theorem reducerOfDepth_canceled (tools : Toolbox) (canceled : Bool) (depth : ℕ) :
    (reducerOfDepth tools canceled depth).canceled = canceled := by
  cases depth <;> rfl

namespace Eval

instance {α : Type} [DecidableEq α] : DecidableEq (Eval α) :=
  inferInstanceAs (DecidableEq (Option (Except Fault α)))

variable {α β : Type} {x : Eval α} {f : α → Eval β} {b : β}

theorem bind_eq_pure_iff : x >>= f = pure b ↔ ∃ a, x = pure a ∧ f a = pure b := by
  constructor
  · intro whole
    match x with
    | none => cases whole
    | some (.error fault) => cases whole
    | some (.ok a) => exact ⟨a, rfl, whole⟩
  · rintro ⟨a, rfl, rest⟩
    rw [pure_bind, rest]

theorem bind_eq_fail_iff {fault : Fault} : x >>= f = fail fault ↔ x = fail fault ∨ ∃ a, x = pure a ∧ f a = fail fault := by
  constructor
  · intro whole
    match x with
    | none => cases whole
    | some (.error other) =>
      cases whole
      exact .inl rfl
    | some (.ok a) => exact .inr ⟨a, rfl, whole⟩
  · rintro (rfl | ⟨a, rfl, rest⟩)
    · rfl
    · rw [pure_bind, rest]

theorem pure_inj {a b : α} : (pure a : Eval α) = pure b ↔ a = b := by
  constructor
  · intro same
    cases same
    rfl
  · rintro rfl
    rfl

end Eval

end Folio
