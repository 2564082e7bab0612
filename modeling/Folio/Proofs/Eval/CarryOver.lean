import Folio.Builtin.Basic
import Folio.Eval.Machine
import Folio.Proofs.Eval.Outcome
import Folio.Proofs.Scope.Screen

/-!
# Evaluations that never look behind the screen

An evaluation in a chain of scopes with names behind a screen either runs into the screen or
has not asked for any of those names.  In the second case it ends in the same way in every
chain that agrees with the first in all other names, and as deep down as one likes.

Main statement: `reducerOfDepth_carriesOver`.
-/

namespace Folio

open Scope (Screens)

variable {α β : Type}

/-! ## Evaluations that end alike -/

namespace Eval

/-- Where the first evaluation ends without running into the screen, the second ends in the same
way. -/
def CarriesOver (x y : Eval α) : Prop :=
  ∀ outcome, x = ofExcept outcome → outcome ≠ .error screenFault → y = ofExcept outcome

def RunsIntoScreen (x : Eval α) : Prop :=
  ∀ outcome, x = ofExcept outcome → outcome = .error screenFault

variable {x y : Eval α}

theorem carriesOver_self (x : Eval α) : CarriesOver x x := fun _ ends _ => ends

theorem CarriesOver.bind {f g : α → Eval β} (first : CarriesOver x y) (rest : ∀ a, CarriesOver (f a) (g a)) :
    CarriesOver (x >>= f) (y >>= g) := by
  intro outcome ends clear
  match x with
  | none => cases ends
  | some (.error fault) =>
    cases ends
    have same : fault ≠ screenFault := fun same => clear (same ▸ rfl)
    rw [first (.error fault) rfl (by simpa using same)]
    rfl
  | some (.ok a) =>
    rw [first (.ok a) rfl (by simp)]
    exact rest a outcome ends clear

theorem CarriesOver.bind_same (first : CarriesOver x y) (f : α → Eval β) : CarriesOver (x >>= f) (y >>= f) :=
  first.bind fun a => carriesOver_self (f a)

theorem runsIntoScreen_unfinished : RunsIntoScreen (unfinished : Eval α) :=
  fun _ ends => nomatch ends

theorem runsIntoScreen_fail : RunsIntoScreen (fail screenFault : Eval α) :=
  fun _ ends => (Option.some.inj ends).symm

theorem RunsIntoScreen.bind (runs : RunsIntoScreen x) (f : α → Eval β) : RunsIntoScreen (x >>= f) := by
  intro outcome ends
  match x with
  | none => cases ends
  | some (.error fault) =>
    cases ends
    cases runs _ rfl
    rfl
  | some (.ok a) => cases runs _ rfl

theorem RunsIntoScreen.carriesOver (runs : RunsIntoScreen x) (y : Eval α) : CarriesOver x y :=
  fun outcome ends clear => absurd (runs outcome ends) clear

end Eval

open Eval (CarriesOver RunsIntoScreen carriesOver_self)

/-! ## Reducers whose evaluations carry carries -/

/-- What the first reducer finds in a chain with a screen, the second finds in every chain that is
screened off. -/
structure Evaluator.CarriesOver (r r' : Reducer) : Prop where
  canceled : r'.canceled = r.canceled
  reduce : ∀ {t s : Scope}, Screens t s → ∀ e, Eval.CarriesOver (r.reduce e t) (r'.reduce e s)
  write : ∀ {t s : Scope}, Screens t s → ∀ l v, Eval.CarriesOver (r.write l v t) (r'.write l v s)
  /-- The screen is a fault wherever it is met. -/
  screen : ∀ t, RunsIntoScreen (r.reduce screen t)
  /-- To ask for a name behind the screen is to run into it. -/
  hidden : ∀ {t : Scope} {name}, '.' ∉ name.toList → t.resolve? name = some Folio.screen →
    RunsIntoScreen (r.reduce (.variable name) t)

variable {r r' : Reducer} {s t : Scope}

theorem Evaluator.CarriesOver.reduceAll (carries : r.CarriesOver r') (screens : Screens t s) (es : List Expr) :
    Eval.CarriesOver (r.reduceAll es t) (r'.reduceAll es s) := by
  induction es with
  | nil => exact carriesOver_self _
  | cons e es ih => exact (carries.reduce screens e).bind fun v => ih.bind_same _

theorem Evaluator.CarriesOver.reduceBound? (carries : r.CarriesOver r') (screens : Screens t s) {name : String}
    (undotted : '.' ∉ name.toList) : Eval.CarriesOver (r.reduceBound? name t) (r'.reduceBound? name s) := by
  obtain hidden | ⟨-, found⟩ := screens name
  · cases bound : t.lookup name with
    | none => cases (Scope.resolve?_of_lookup bound).symm.trans hidden
    | some e =>
      rw [Evaluator.reduceBound?, Scoping.seen_bind, bound]
      exact ((carries.hidden undotted hidden).bind _).carriesOver _
  · rw [Evaluator.reduceBound?, Evaluator.reduceBound?, Scoping.seen_bind, Scoping.seen_bind, found]
    cases t.lookup name with
    | none => exact carriesOver_self _
    | some e => exact (carries.reduce screens _).bind_same _

theorem Evaluator.CarriesOver.locale (carries : r.CarriesOver r') (screens : Screens t s) :
    Eval.CarriesOver (r.locale t) (r'.locale s) :=
  (carries.reduceBound? screens (by decide)).bind_same _

theorem Evaluator.CarriesOver.reduceToText (carries : r.CarriesOver r') (screens : Screens t s) (e : Expr) :
    Eval.CarriesOver (r.reduceToText e t) (r'.reduceToText e s) :=
  (carries.reduce screens e).bind fun v => (carries.locale screens).bind fun l => carries.write screens l v

/-! ## Entries -/

theorem CategoryName.property?_carriesOver (carries : r.CarriesOver r') (screens : Screens t s) (c : CategoryName)
    (name : String) : CarriesOver (c.property? r name t) (c.property? r' name s) :=
  ((carries.reduceBound? screens (by decide)).bind_same _).bind_same _

theorem TagName.property?_carriesOver (carries : r.CarriesOver r') (screens : Screens t s) (tagName name : String) :
    CarriesOver (TagName.property? r tagName name t) (TagName.property? r' tagName name s) :=
  ((carries.reduceBound? screens (by decide)).bind_same _).bind_same _

namespace Document

/-- The document's own scope is put in both chains. -/
theorem field?_carriesOver (carries : r.CarriesOver r') (screens : Screens t s) (d : Document) (name : String) :
    CarriesOver (d.field? r name t) (d.field? r' name s) := by
  rw [field?, field?]
  cases Keyed.get? name d.header with
  | none => exact carriesOver_self _
  | some e =>
    simp only [Scoping.inside_bind]
    exact (carries.reduce (screens.child d.bindings) e).bind_same _

theorem title_carriesOver (carries : r.CarriesOver r') (screens : Screens t s) (d : Document) :
    CarriesOver (d.title r t) (d.title r' s) :=
  (d.field?_carriesOver carries screens "title").bind_same _

theorem date_carriesOver (carries : r.CarriesOver r') (screens : Screens t s) (d : Document) :
    CarriesOver (d.date r t) (d.date r' s) :=
  (d.field?_carriesOver carries screens "date").bind_same _

theorem property?_carriesOver (carries : r.CarriesOver r') (screens : Screens t s) (d : Document) (name : String) :
    CarriesOver (d.property? r name t) (d.property? r' name s) := by
  have field := d.field?_carriesOver carries screens
  unfold property?
  split
  case h_1 | h_2 => exact carriesOver_self _
  case h_3 => exact (d.title_carriesOver carries screens).bind_same _
  case h_4 => exact (d.date_carriesOver carries screens).bind_same _
  case h_5 => exact ((field "published").bind_same _).bind_same _
  case h_6 => exact ((field "tags").bind_same _).bind_same _
  case h_7 => exact (field "category").bind_same _
  case h_8 => exact field name

end Document

namespace Entry

theorem ownProperty?_carriesOver (carries : r.CarriesOver r') (screens : Screens t s) (e : Entry) (name : String) :
    CarriesOver (e.ownProperty? r name t) (e.ownProperty? r' name s) := by
  cases e with
  | document d => exact d.property?_carriesOver carries screens name
  | categoryName c => exact c.property?_carriesOver carries screens name
  | tagName tagName => exact TagName.property?_carriesOver carries screens tagName name
  | path | category | tag | loopItem => exact carriesOver_self _

theorem property?_carriesOver (carries : r.CarriesOver r') (screens : Screens t s) (e : Entry) (name : String) :
    CarriesOver (e.property? r name t) (e.property? r' name s) := by
  have own := fun e : Entry => e.ownProperty?_carriesOver carries screens name
  cases e with
  | loopItem i =>
    simp only [property?]
    split
    case h_1 | h_2 | h_3 => exact carriesOver_self _
    case h_4 =>
      cases i.unwrapped with
      | entry inner => exact own inner
      | null | bool | int | float | str | date | list | callable => exact carriesOver_self _
  | path p => exact own (.path p)
  | document d => exact own (.document d)
  | category c => exact own (.category c)
  | categoryName c => exact own (.categoryName c)
  | tag t => exact own (.tag t)
  | tagName tagName => exact own (.tagName tagName)

theorem implicitValue_carriesOver (carries : r.CarriesOver r') (screens : Screens t s) (e : Entry) :
    CarriesOver (e.implicitValue r t) (e.implicitValue r' s) := by
  cases e with
  | document d => exact d.title_carriesOver carries screens
  | path | category | categoryName | tag | tagName | loopItem => exact carriesOver_self _

end Entry

/-! ## Functions -/

namespace Builtin

theorem relative_carriesOver (carries : r.CarriesOver r') (screens : Screens t s) (args : List Expr) :
    CarriesOver (relative r args t) (relative r' args s) := by
  cases args with
  | nil => exact carriesOver_self _
  | cons arg args =>
    refine (carries.reduce screens arg).bind fun v => ?_
    dsimp only
    split_ifs with leadsOut
    · exact carriesOver_self _
    · cases targetPath? v with
      | none => exact carriesOver_self _
      | some target => exact ((carries.reduceBound? screens (by decide)).bind_same _).bind_same _

theorem lookup_carriesOver (carries : r.CarriesOver r') (screens : Screens t s) (args : List Expr) :
    CarriesOver (lookup r args t) (lookup r' args s) := by
  cases args with
  | nil => exact carriesOver_self _
  | cons arg args => exact (carries.reduceToText screens arg).bind_same _

theorem link_carriesOver (carries : r.CarriesOver r') (screens : Screens t s) (className : String) (args : List Expr) :
    CarriesOver (link className r args t) (link className r' args s) := by
  cases args with
  | nil => exact carriesOver_self _
  | cons arg args => exact (carries.reduceToText screens arg).bind_same _

theorem dateDocuments_carriesOver (carries : r.CarriesOver r') (screens : Screens t s) (ds : List Document) :
    CarriesOver (dateDocuments r t ds) (dateDocuments r' s ds) := by
  induction ds with
  | nil => exact carriesOver_self _
  | cons d ds ih => exact (d.date_carriesOver carries screens).bind fun date => ih.bind_same _

theorem timeline_carriesOver (carries : r.CarriesOver r') (screens : Screens t s) :
    CarriesOver (timeline r t) (timeline r' s) := by
  refine (carries.reduceBound? screens (by decide)).bind fun v? => ?_
  split
  · exact (dateDocuments_carriesOver carries screens _).bind_same _
  · exact carriesOver_self _

theorem currentDocument?_carriesOver (carries : r.CarriesOver r') (screens : Screens t s) (args : List Expr) :
    CarriesOver (currentDocument? r args t) (currentDocument? r' args s) := by
  cases args with
  | nil => exact (carries.reduceBound? screens (by decide)).bind_same _
  | cons arg args => exact (carries.reduce screens arg).bind_same _

theorem neighbour_carriesOver (carries : r.CarriesOver r') (screens : Screens t s) (direction : Direction)
    (args : List Expr) : CarriesOver (neighbour direction r args t) (neighbour direction r' args s) := by
  refine (currentDocument?_carriesOver carries screens args).bind fun current? => ?_
  cases current? with
  | none => exact carriesOver_self _
  | some current => exact (timeline_carriesOver carries screens).bind_same _

theorem runDeferred_carriesOver (carries : r.CarriesOver r') (screens : Screens t s) (name : String)
    (args : List Expr) : CarriesOver (runDeferred name r args t) (runDeferred name r' args s) := by
  unfold runDeferred
  split
  case h_1 => exact relative_carriesOver carries screens args
  case h_2 => exact lookup_carriesOver carries screens args
  case h_3 | h_4 => exact neighbour_carriesOver carries screens _ args
  case h_5 | h_6 => exact link_carriesOver carries screens _ args
  case h_7 => exact carriesOver_self _

end Builtin

/-! ## The evaluator -/

theorem follow_carriesOver (carries : r.CarriesOver r') (screens : Screens t s) (v : Value) (properties : List String) :
    CarriesOver (r.follow t v properties) (r'.follow s v properties) := by
  induction properties generalizing v with
  | nil => cases v <;> exact carriesOver_self _
  | cons name properties ih =>
    cases v with
    | entry e =>
      refine (e.property?_carriesOver carries screens name).bind fun next? => ?_
      cases next? with
      | none => exact carriesOver_self _
      | some next => exact ih next
    | null | bool | int | float | str | date | list | callable => exact carriesOver_self _

theorem reduceVariable_carriesOver (carries : r.CarriesOver r') (screens : Screens t s) (name : String) :
    CarriesOver (r.reduceVariable name t) (r'.reduceVariable name s) := by
  rw [Evaluator.reduceVariable, Evaluator.reduceVariable]
  cases SitePath.pieces (· == '.') name.toList with
  | nil => exact carriesOver_self _
  | cons head properties =>
    simp only [Scoping.seen_bind]
    obtain hidden | ⟨resolved, -⟩ := screens (String.ofList head)
    · rw [hidden]
      exact ((carries.screen t).bind _).carriesOver _
    · rw [resolved]
      cases t.resolve? (String.ofList head) with
      | none => exact carriesOver_self _
      | some e => exact (carries.reduce screens e).bind fun v => follow_carriesOver carries screens v _

theorem apply_carriesOver (carries : r.CarriesOver r') (screens : Screens t s) (function : Expr) (args : List Expr) :
    CarriesOver (r.apply Builtin.toolbox function args t) (r'.apply Builtin.toolbox function args s) := by
  refine (carries.reduce screens function).bind fun v => ?_
  cases v with
  | callable c =>
    have check : r'.checkCanceled = r.checkCanceled := by
      rw [Evaluator.checkCanceled, Evaluator.checkCanceled, carries.canceled]
    dsimp only
    rw [check]
    refine (carriesOver_self _).bind fun _ => ?_
    cases c.style with
    | deferred =>
      exact (Builtin.runDeferred_carriesOver carries screens c.name args).bind fun e => carries.reduce screens e
    -- The function that is called here is given no more of the scope than the locale.
    | contextual => exact (carries.reduceAll screens args).bind fun vs => (carries.locale screens).bind_same _
    | strict => exact (carries.reduceAll screens args).bind_same _
  | null | bool | int | float | str | date | list | entry => exact carriesOver_self _

theorem reduceStep_carriesOver (carries : r.CarriesOver r') (screens : Screens t s) (e : Expr) :
    CarriesOver (r.reduceStep Builtin.toolbox e t) (r'.reduceStep Builtin.toolbox e s) := by
  cases e with
  | value v => exact carriesOver_self _
  | «variable» name => exact reduceVariable_carriesOver carries screens name
  | array items => exact (carries.reduceAll screens items).bind_same _
  | apply function args => exact apply_carriesOver carries screens function args

theorem writeAll_carriesOver (carries : r.CarriesOver r') (screens : Screens t s) (l : Locale) (vs : List Value) :
    CarriesOver (r.writeAll l t vs) (r'.writeAll l s vs) := by
  induction vs with
  | nil => exact carriesOver_self _
  | cons v vs ih => exact (carries.write screens l v).bind fun text => ih.bind_same _

theorem writeStep_carriesOver (carries : r.CarriesOver r') (screens : Screens t s) (l : Locale) (v : Value) :
    CarriesOver (r.writeStep l v t) (r'.writeStep l v s) := by
  cases v with
  | list items => exact (writeAll_carriesOver carries screens l items).bind_same _
  | entry e => exact (e.implicitValue_carriesOver carries screens).bind fun v => carries.write screens l v
  | null | bool | int | float | str | date | callable => exact carriesOver_self _

/-- At depth 0 nothing ends; a level further down the screen is a call of what is no function. -/
theorem reduce_screen (canceled : Bool) (depth : ℕ) (t : Scope) :
    RunsIntoScreen ((reducerOfDepth Builtin.toolbox canceled depth).reduce screen t) := by
  match depth with
  | 0 => exact Eval.runsIntoScreen_unfinished
  | 1 => exact Eval.runsIntoScreen_unfinished
  | depth + 2 => exact Eval.runsIntoScreen_fail

theorem reduce_hidden (canceled : Bool) (depth : ℕ) {t : Scope} {name : String} (undotted : '.' ∉ name.toList)
    (hidden : t.resolve? name = some screen) :
    RunsIntoScreen ((reducerOfDepth Builtin.toolbox canceled depth).reduce (.variable name) t) := by
  cases depth with
  | zero => exact Eval.runsIntoScreen_unfinished
  | succ depth =>
    have named : (reducerOfDepth Builtin.toolbox canceled (depth + 1)).reduce (.variable name) t =
        (reducerOfDepth Builtin.toolbox canceled depth).reduce screen t := by
      refine (reduceVariable_undotted _ undotted t).trans ?_
      rw [hidden]
    rw [named]
    exact reduce_screen canceled depth t

/-- What is found without a look behind the screen is found at every greater depth, and in every
chain that is screened off. -/
theorem reducerOfDepth_carriesOver (canceled : Bool) {depth deeper : ℕ} (le : depth ≤ deeper) :
    (reducerOfDepth Builtin.toolbox canceled depth).CarriesOver (reducerOfDepth Builtin.toolbox canceled deeper) := by
  induction depth generalizing deeper with
  | zero =>
    exact ⟨by simp only [reducerOfDepth_canceled], fun _ _ => Eval.runsIntoScreen_unfinished.carriesOver _,
      fun _ _ _ => Eval.runsIntoScreen_unfinished.carriesOver _, reduce_screen canceled 0, reduce_hidden canceled 0⟩
  | succ depth ih =>
    obtain ⟨deeper, rfl⟩ : ∃ n, deeper = n + 1 := ⟨deeper - 1, by omega⟩
    have carries := ih (Nat.le_of_succ_le_succ le)
    exact ⟨by simp only [reducerOfDepth_canceled], reduceStep_carriesOver carries, writeStep_carriesOver carries,
      reduce_screen canceled _, reduce_hidden canceled _⟩

end Folio
