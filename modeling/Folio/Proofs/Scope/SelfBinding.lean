import Folio.Scope.Basic
import Mathlib.Tactic

/-!
# Names bound to themselves

A scope that binds names to themselves may stand anywhere in a chain of scopes: a look-up of
a name passes it by on the way to the binding that the name stands for.
-/

namespace Folio

namespace Scope

variable {s s' : Scope} {name : String} {e : Expr}

/-! ## The bindings of a name -/

/-- What the scopes of the chain bind the name to, the nearest first. -/
def bindingsOf (name : String) : Scope → List Expr
  | .root own => (Keyed.get? name own).toList
  | .child own parent => (Keyed.get? name own).toList ++ parent.bindingsOf name

theorem lookup_eq_head? (s : Scope) (name : String) : s.lookup name = (s.bindingsOf name).head? := by
  induction s with
  | root own =>
    cases bound : Keyed.get? name own <;> simp [lookup, lookupHolder, bindingsOf, bound]
  | child own parent ih =>
    cases bound : Keyed.get? name own with
    | none => simpa [lookup, lookupHolder, bindingsOf, bound] using ih
    | some e => simp [lookup, lookupHolder, bindingsOf, bound]

theorem isSelf_iff : isSelf name e = true ↔ e = .variable name := by
  cases e <;> simp [isSelf]

theorem resolve?_eq_find? (s : Scope) (name : String) :
    s.resolve? name = (s.bindingsOf name).find? fun e => !isSelf name e := by
  induction s with
  | root own =>
    cases bound : Keyed.get? name own with
    | none => simp [resolve?, bindingsOf, bound]
    | some e => cases self : isSelf name e <;> simp [resolve?, bindingsOf, bound, Option.filter, self]
  | child own parent ih =>
    cases bound : Keyed.get? name own with
    | none => simp [resolve?, bindingsOf, bound, ih]
    | some e => cases self : isSelf name e <;> simp [resolve?, bindingsOf, bound, self, ih]

/-- A name that is bound to itself only stands for nothing. -/
theorem resolve?_eq_none_iff : s.resolve? name = none ↔ ∀ e ∈ s.bindingsOf name, e = .variable name := by
  simp [resolve?_eq_find?, isSelf_iff]

/-- A name stands for the nearest binding to something else. -/
theorem resolve?_eq_some {selfs others : List Expr} (bindings : s.bindingsOf name = selfs ++ e :: others)
    (self : ∀ b ∈ selfs, b = .variable name) (other : e ≠ .variable name) : s.resolve? name = some e := by
  have passed : selfs.find? (fun b => !isSelf name b) = none := by
    simpa [isSelf_iff] using self
  have stops : isSelf name e = false := Bool.eq_false_iff.2 fun self => other (isSelf_iff.1 self)
  rw [resolve?_eq_find?, bindings, List.find?_append, passed]
  simp [stops]

/-! ## Scopes put in between -/

def SelfOnly (own : Fields) : Prop :=
  ∀ name e, Keyed.get? name own = some e → e = .variable name

/-- The second chain is the first with scopes put in between whose bindings are `SelfOnly`. -/
inductive Padded : Scope → Scope → Prop where
  | root (own : Fields) : Padded (.root own) (.root own)
  | child {s s' : Scope} (own : Fields) (padded : Padded s s') : Padded (.child own s) (.child own s')
  | layer {s s' : Scope} {own : Fields} (self : SelfOnly own) (padded : Padded s s') : Padded s (.child own s')

theorem padded_self (s : Scope) : Padded s s := by
  induction s with
  | root own => exact .root own
  | child own parent ih => exact .child own ih

theorem Padded.resolve? (padded : Padded s s') (name : String) : s'.resolve? name = s.resolve? name := by
  induction padded with
  | root own => rfl
  | child own padded ih => simp only [Scope.resolve?, ih]
  -- A layer binds the name to itself or not at all; both lead on to the scope around it.
  | @layer s s' own self padded ih =>
    cases bound : Keyed.get? name own with
    | none => simp [Scope.resolve?, bound, ih]
    | some e => simp [Scope.resolve?, bound, isSelf_iff.2 (self name e bound), ih]

theorem Padded.sublist (padded : Padded s s') (name : String) :
    (s.bindingsOf name).Sublist (s'.bindingsOf name) := by
  induction padded with
  | root own => exact .refl _
  | child own padded ih => exact ih.append_left _
  | layer self padded ih => exact ih.trans (List.sublist_append_right _ _)

/-- A name that is bound before more scopes are put in is bound after that too. -/
theorem Padded.lookup_isSome (padded : Padded s s') (bound : s.lookup name ≠ none) : s'.lookup name ≠ none := by
  simp only [lookup_eq_head?, ne_eq, List.head?_eq_none_iff] at bound ⊢
  intro empty
  have none := padded.sublist name
  rw [empty, List.sublist_nil] at none
  exact bound none

theorem resolve?_of_lookup (unbound : s.lookup name = none) : s.resolve? name = none := by
  rw [lookup_eq_head?, List.head?_eq_none_iff] at unbound
  simp [resolve?_eq_find?, unbound]

/-! ## Layers of self-bindings -/

/-- A scope inside this one that binds each of the names to itself. -/
def selfBind (names : List String) (s : Scope) : Scope :=
  names.foldl (fun t name => t.set name (.variable name)) s.spawn

/-- Such scopes one inside the other, the first list of names outermost. -/
def selfBindAll (layers : List (List String)) (s : Scope) : Scope :=
  layers.foldl (fun t names => t.selfBind names) s

theorem SelfOnly.set {own : Fields} (self : SelfOnly own) (name : String) :
    SelfOnly (Keyed.set name (.variable name) own) := by
  intro other e bound
  by_cases same : other = name
  · rw [same, Keyed.get?_set_self] at bound
    rw [same]
    exact (Option.some_inj.1 bound).symm
  · rw [Keyed.get?_set_of_ne same] at bound
    exact self other e bound

theorem foldl_set_selfOnly {own : Fields} (self : SelfOnly own) (names : List String) (s : Scope) :
    ∃ own', SelfOnly own' ∧
      names.foldl (fun t name => Scope.set name (.variable name) t) (.child own s) = .child own' s := by
  induction names generalizing own with
  | nil => exact ⟨own, self, rfl⟩
  | cons name names ih => exact ih (self.set name)

theorem padded_selfBindAll (layers : List (List String)) (s : Scope) : Padded s (s.selfBindAll layers) := by
  have none : SelfOnly [] := fun _ _ bound => nomatch bound
  -- The chain so far grows with each layer, so the claim is about any padded chain.
  have step : ∀ (layers : List (List String)) (t : Scope), Padded s t → Padded s (t.selfBindAll layers) := by
    intro layers
    induction layers with
    | nil => exact fun t padded => padded
    | cons names layers ih =>
      intro t padded
      obtain ⟨own, self, layer⟩ := foldl_set_selfOnly none names t
      have inner : Padded s (t.selfBind names) := by
        rw [selfBind, spawn, layer]
        exact .layer self padded
      exact ih _ inner
  exact step layers s (padded_self s)

end Scope

end Folio
