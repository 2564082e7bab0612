import Folio.Proofs.Eval.CarryOver

/-!
# What an evaluation settles on

Evaluation is a function of a depth, and an evaluation that has come to a value comes to it at
every greater depth.  So one can say what it settles on without naming a depth, and take it apart
into what its parts settle on.

Main statement: `Settles.bind_iff`.
-/

namespace Folio

variable {α β : Type} {canceled : Bool} {x y : Reducer → Eval α} {f : α → Reducer → Eval β} {a : α} {b : β}

def Settles (canceled : Bool) (x : Reducer → Eval α) (a : α) : Prop :=
  ∃ depth, ∀ deeper ≥ depth, x (reducerOfDepth Builtin.toolbox canceled deeper) = pure a

/-- What the evaluation comes to at some depth, it comes to at every greater one. -/
def Steady (canceled : Bool) (x : Reducer → Eval α) : Prop :=
  ∀ depth a, x (reducerOfDepth Builtin.toolbox canceled depth) = pure a →
    ∀ deeper ≥ depth, x (reducerOfDepth Builtin.toolbox canceled deeper) = pure a

/-! ## Steady evaluations -/

namespace Steady

theorem of_carriesOver
    (carries : ∀ {r r' : Reducer}, r.CarriesOver r' → Eval.CarriesOver (x r) (x r')) : Steady canceled x :=
  fun _ a comes _ le => carries (reducerOfDepth_carriesOver canceled le) (.ok a) comes (by simp)

variable {e : Expr} {s : Scope} {d : Document} {name : String}

theorem reduce : Steady canceled (·.reduce e s) :=
  .of_carriesOver fun carries => carries.reduce s.screens_self e

theorem locale : Steady canceled (·.locale s) :=
  .of_carriesOver fun carries => carries.locale s.screens_self

theorem field? : Steady canceled fun r => d.field? r name s :=
  .of_carriesOver fun carries => d.field?_carriesOver carries s.screens_self name

end Steady

/-! ## Settling -/

namespace Settles

theorem unique {a' : α} (first : Settles canceled x a) (second : Settles canceled x a') : a = a' := by
  obtain ⟨depth, comes⟩ := first
  obtain ⟨depth', comes'⟩ := second
  exact Eval.pure_inj.1 ((comes (max depth depth') (by omega)).symm.trans (comes' _ (by omega)))

theorem pure_iff {a' : α} : Settles canceled (fun _ => pure a) a' ↔ a' = a := by
  constructor
  · rintro ⟨depth, comes⟩
    exact (Eval.pure_inj.1 (comes depth le_rfl)).symm
  · rintro rfl
    exact ⟨0, fun _ _ => rfl⟩

/-- An evaluation that needs one level more settles on the same. -/
theorem iff_of_succ
    (same : ∀ depth, x (reducerOfDepth Builtin.toolbox canceled (depth + 1)) =
      y (reducerOfDepth Builtin.toolbox canceled depth)) : Settles canceled x a ↔ Settles canceled y a := by
  constructor
  · rintro ⟨depth, comes⟩
    exact ⟨depth, fun deeper le => (same deeper).symm.trans (comes (deeper + 1) (by omega))⟩
  · rintro ⟨depth, comes⟩
    refine ⟨depth + 1, fun deeper le => ?_⟩
    obtain ⟨deeper, rfl⟩ : ∃ n, deeper = n + 1 := ⟨deeper - 1, by omega⟩
    exact (same deeper).trans (comes deeper (by omega))

theorem bind_iff (steady : Steady canceled x) :
    Settles canceled (fun r => x r >>= fun a => f a r) b ↔ ∃ a, Settles canceled x a ∧ Settles canceled (f a) b := by
  constructor
  · rintro ⟨depth, comes⟩
    obtain ⟨a, first, -⟩ := Eval.bind_eq_pure_iff.1 (comes depth le_rfl)
    have settled := steady depth a first
    refine ⟨a, ⟨depth, settled⟩, depth, fun deeper le => ?_⟩
    obtain ⟨a', again, rest⟩ := Eval.bind_eq_pure_iff.1 (comes deeper le)
    obtain rfl := Eval.pure_inj.1 ((settled deeper le).symm.trans again)
    exact rest
  · rintro ⟨a, ⟨depth, first⟩, depth', rest⟩
    exact ⟨max depth depth', fun deeper le =>
      Eval.bind_eq_pure_iff.2 ⟨a, first deeper (by omega), rest deeper (by omega)⟩⟩

/-- What is done with the value of an evaluation is done with what it settles on. -/
theorem bind_pure_iff (steady : Steady canceled x) {g : α → β} :
    Settles canceled (fun r => x r >>= fun a => pure (g a)) b ↔ ∃ a, Settles canceled x a ∧ b = g a := by
  simp only [bind_iff (f := fun a _ => pure (g a)) steady, pure_iff]

end Settles

/-! ## What the evaluator settles on -/

section Evaluator

variable {s t : Scope} {name : String} {e : Expr} {v w : Value} {text : String}

theorem settles_value_iff : Settles canceled (·.reduce (.value v) s) w ↔ w = v :=
  (Settles.iff_of_succ fun _ => rfl).trans Settles.pure_iff

theorem settles_variable_iff (undotted : '.' ∉ name.toList) (meant : s.resolve? name = some e) :
    Settles canceled (·.reduce (.variable name) s) v ↔ Settles canceled (·.reduce e s) v := by
  refine Settles.iff_of_succ fun depth => (reduceVariable_undotted _ undotted s).trans ?_
  rw [meant]

/-- An expression settles on the same in chains of scopes that bind all names alike. -/
theorem Settles.of_screens (settles : Settles canceled (·.reduce e t) v) (screens : t.Screens s) :
    Settles canceled (·.reduce e s) v := by
  obtain ⟨depth, comes⟩ := settles
  refine ⟨depth, fun deeper le => ?_⟩
  exact (reducerOfDepth_carriesOver canceled le).reduce screens e (.ok v) (comes depth le_rfl) (by simp)

theorem Settles.text_iff (settles : Settles canceled (·.reduce e s) v) :
    Settles canceled (·.reduceToText e s) text ↔ Settles canceled (·.writeIn v s) text := by
  refine (Settles.bind_iff (f := fun v r => r.writeIn v s) .reduce).trans ⟨?_, fun written => ⟨v, settles, written⟩⟩
  rintro ⟨v', settles', written⟩
  rwa [settles.unique settles']

/-- A value that is written alike in every locale is written wherever the locale can be told. -/
theorem settles_write_iff
    (written : ∀ locale depth, (reducerOfDepth Builtin.toolbox canceled (depth + 1)).write locale v s = pure text)
    {other : String} :
    Settles canceled (·.writeIn v s) other ↔ (∃ locale, Settles canceled (·.locale s) locale) ∧ other = text := by
  refine (Settles.bind_iff (f := fun locale r => r.write locale v s) .locale).trans ?_
  rw [exists_and_right.symm]
  refine exists_congr fun locale => and_congr_right fun _ => ?_
  exact (Settles.iff_of_succ (y := fun _ => pure text) (written locale)).trans Settles.pure_iff

end Evaluator

end Folio
