import Folio.Proofs.Eval.SelfBinding

/-!
# Scopes that leave names alone

A scope somewhere inside another sees the names that no scope between the two binds as the
outer one does.
-/

namespace Folio

namespace Scope

variable {keys : List String} {key : String} {outer s : Scope}

/-- The scope lies inside the outer one, or is it, and none of the scopes on the way out to it
binds any of the keys. -/
inductive Below (keys : List String) (outer : Scope) : Scope → Prop where
  | self : Below keys outer outer
  | child {own : Fields} {s : Scope} (free : ∀ key ∈ keys, Keyed.get? key own = none)
      (inside : Below keys outer s) : Below keys outer (.child own s)

theorem Below.bindingsOf (below : Below keys outer s) (mem : key ∈ keys) : s.bindingsOf key = outer.bindingsOf key := by
  induction below with
  | self => rfl
  | child free inside ih => rw [Scope.bindingsOf, free key mem, Option.toList_none, List.nil_append, ih]

theorem bindingsOf_set_self (name : String) (e : Expr) (own : Fields) :
    (Scope.set name e (.root own)).bindingsOf name = [e] := by
  rw [set, Scope.bindingsOf, Keyed.get?_set_self, Option.toList_some]

theorem bindingsOf_set_of_ne {name other : String} (differs : other ≠ name) (e : Expr) (own : Fields) :
    (Scope.set name e (.root own)).bindingsOf other = (Scope.root own).bindingsOf other := by
  rw [set, Scope.bindingsOf, Keyed.get?_set_of_ne differs, Scope.bindingsOf]

end Scope

section

variable {tools : Toolbox} {canceled : Bool} {name : String} {v : Value} {s : Scope} {others : List Expr}

/-- A name whose nearest binding is a value stands for that value, two levels deep. -/
theorem reduce_variable_value (undotted : '.' ∉ name.toList) (bound : s.bindingsOf name = .value v :: others)
    (depth : ℕ) : (reducerOfDepth tools canceled (depth + 2)).reduce (.variable name) s = pure v := by
  have nearest : s.bindingsOf name = [] ++ .value v :: others := bound
  have meant : s.resolve? name = some (.value v) :=
    Scope.resolve?_eq_some nearest (fun _ none => nomatch none) (fun same => nomatch same)
  refine (reduceVariable_undotted (reducerOfDepth tools canceled (depth + 1)) undotted s).trans ?_
  rw [meant]
  rfl

/-- A name that stands for nothing is its own text. -/
theorem reduce_variable_unbound (undotted : '.' ∉ name.toList) (unbound : s.resolve? name = none) (depth : ℕ) :
    (reducerOfDepth tools canceled (depth + 1)).reduce (.variable name) s = pure (.str name) := by
  refine (reduceVariable_undotted (reducerOfDepth tools canceled depth) undotted s).trans ?_
  rw [unbound]

theorem reduceBound?_value (undotted : '.' ∉ name.toList) (bound : s.bindingsOf name = .value v :: others)
    (depth : ℕ) : (reducerOfDepth tools canceled (depth + 2)).reduceBound? name s = pure (some v) := by
  have found : s.lookup name = some (.value v) := by
    rw [Scope.lookup_eq_head?, bound, List.head?_cons]
  rw [Evaluator.reduceBound?, Scoping.seen_bind, found]
  dsimp only
  rw [reduce_variable_value undotted bound, pure_bind]

end

end Folio
