import Folio.Fault
import Folio.Proofs.Scope.Below

/-!
# Names behind a screen

A name is put behind a screen by binding it to an expression that is a fault for whoever
evaluates it.  A chain of scopes with a screen in it stands for every chain in which the names
behind the screen may be bound to anything.
-/

namespace Folio

def screen : Expr := .apply (.value .null) []

def screenFault : Fault := .call (.notFunction (Value.text .null) (Value.typeName .null))

namespace Scope

variable {s t outer : Scope} {name : String} {names : List String}

/-- The scope inside this one that puts the names behind a screen. -/
def screened (names : List String) (s : Scope) : Scope :=
  .child (names.foldr (fun name own => Keyed.set name screen own) []) s

theorem get?_screens (names : List String) (name : String) :
    Keyed.get? name (names.foldr (fun name own => Keyed.set name screen own) []) =
      if name ∈ names then some screen else none := by
  induction names with
  | nil => rfl
  | cons first names ih =>
    rw [List.foldr_cons]
    by_cases same : name = first
    · rw [same, Keyed.get?_set_self, if_pos (List.mem_cons_self ..)]
    · rw [Keyed.get?_set_of_ne same, ih]
      simp only [List.mem_cons, same, false_or]

theorem resolve?_screened_of_mem (mem : name ∈ names) (s : Scope) : (s.screened names).resolve? name = some screen := by
  rw [screened, resolve?, get?_screens, if_pos mem]
  rfl

theorem bindingsOf_screened_of_notMem (other : name ∉ names) (s : Scope) :
    (s.screened names).bindingsOf name = s.bindingsOf name := by
  rw [screened, bindingsOf, get?_screens, if_neg other, Option.toList_none, List.nil_append]

/-! ## Chains of scopes that agree in what is not behind a screen -/

/-- A name is behind a screen in the first chain, or it is bound alike in both. -/
def Screens (t s : Scope) : Prop :=
  ∀ name, t.resolve? name = some screen ∨ s.resolve? name = t.resolve? name ∧ s.lookup name = t.lookup name

/-- Where there is no screen, chains that bind all names alike screen one another. -/
theorem screens_of_alike (same : ∀ name, s.resolve? name = t.resolve? name ∧ s.lookup name = t.lookup name) :
    Screens t s :=
  fun name => .inr (same name)

theorem screens_self (s : Scope) : Screens s s :=
  screens_of_alike fun _ => ⟨rfl, rfl⟩

theorem screens_of_bindingsOf (same : ∀ name, t.resolve? name = some screen ∨ s.bindingsOf name = t.bindingsOf name) :
    Screens t s := by
  intro name
  refine (same name).imp_right fun bindings => ?_
  simp only [resolve?_eq_find?, lookup_eq_head?, bindings, and_self]

/-- The bindings of an inner scope hide a screen further out, or they leave it as it is. -/
theorem Screens.child (screens : Screens t s) (own : Fields) : Screens (.child own t) (.child own s) := by
  intro name
  cases bound : Keyed.get? name own with
  | none => simpa [resolve?, lookup, lookupHolder, bound] using screens name
  | some e =>
    by_cases self : isSelf name e
    · refine (screens name).imp ?_ ?_
      · intro hidden
        simp [resolve?, bound, self, hidden]
      · rintro ⟨resolved, -⟩
        simp [resolve?, lookup, lookupHolder, bound, self, resolved]
    · right
      simp [resolve?, lookup, lookupHolder, bound, self]

/-- The names that scopes bind on the way out to another scope, put behind a screen there, screen
those scopes off. -/
theorem screens_screened (free : ∀ name, name ∉ names → Below [name] outer s) : Screens (outer.screened names) s := by
  refine screens_of_bindingsOf fun name => ?_
  by_cases mem : name ∈ names
  · exact .inl (resolve?_screened_of_mem mem outer)
  · right
    rw [(free name mem).bindingsOf (List.mem_singleton_self name), bindingsOf_screened_of_notMem mem]

end Scope

end Folio
