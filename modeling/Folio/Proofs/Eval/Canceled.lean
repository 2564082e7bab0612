import Folio.Proofs.Eval.Outcome
import Folio.Template.Render

/-!
# After cancellation nothing is called

What a callable runs is told to an evaluation by a toolbox.  Once the work has been canceled an
application ends before the toolbox is asked, and a loop before its first pass begins.  So the
functions behind the callables, wherever a value, a field of a document, or a locale leads to
them, make no difference any more, and neither do the bodies of loops.

Main statement: `canceled_calls_nothing`.
-/

namespace Folio

variable {r : Reducer} {tools : Toolbox} {s : Scope}

/-! ## Calls -/

theorem Evaluator.checkCanceled_of_canceled (canceled : r.canceled = true) : r.checkCanceled = Eval.fail .canceled := by
  rw [Evaluator.checkCanceled, if_pos canceled, Scoping.lift_eq]

theorem Eval.fail_bind {α β : Type} (fault : Fault) (f : α → Eval β) : Eval.fail fault >>= f = Eval.fail fault :=
  rfl

/-- Whatever a function evaluates to, its application ends in a fault without a call. -/
theorem apply_of_canceled (canceled : r.canceled = true) (function : Expr) (args : List Expr) (s : Scope) :
    r.apply tools function args s = r.reduce function s >>= fun
      | .callable _ => Eval.fail .canceled
      | v => Eval.fail (.call (.notFunction function.text v.typeName)) := by
  rw [Evaluator.apply]
  congr 1
  funext v
  cases v with
  | callable c =>
    dsimp only
    rw [Evaluator.checkCanceled_of_canceled canceled, Eval.fail_bind]
  | null | bool | int | float | str | date | list | entry => rfl

theorem reduceStep_of_canceled (canceled : r.canceled = true) (tools other : Toolbox) (e : Expr) (s : Scope) :
    r.reduceStep tools e s = r.reduceStep other e s := by
  cases e with
  | apply function args => exact (apply_of_canceled canceled ..).trans (apply_of_canceled canceled ..).symm
  | value | «variable» | array => rfl

/-- Canceled reducers are the same for all toolboxes, at every depth. -/
theorem reducerOfDepth_of_canceled (tools other : Toolbox) (depth : ℕ) :
    reducerOfDepth tools true depth = reducerOfDepth other true depth := by
  induction depth with
  | zero => rfl
  | succ depth ih =>
    have steps : (reducerOfDepth other true depth).reduceStep tools = (reducerOfDepth other true depth).reduceStep other := by
      funext e s
      exact reduceStep_of_canceled (reducerOfDepth_canceled ..) tools other e s
    rw [reducerOfDepth, reducerOfDepth, ih, steps]

/-! ## Loops -/

open Template (loopElements passScope renderPasses)

/-- Each pass is rendered in a scope of its own, in which the element is bound. -/
theorem Template.renderPasses_cons (r : Reducer) (body : Scope → Eval String) (name : String) (count index : ℕ)
    (item : Value) (items : List Value) (s : Scope) :
    renderPasses r body name count s index (item :: items) = (do
      r.checkCanceled
      let first ← body (passScope name count index s item)
      let rest ← renderPasses r body name count s (index + 1) items
      pure (first ++ rest)) := by
  simp only [renderPasses, Scoping.binding_bind, passScope]

/-- A loop over something fails before its first pass, and one over nothing has none. -/
theorem render_loop_of_canceled (canceled : r.canceled = true) (args : List Expr) (body : List Node) (s : Scope) :
    (Node.loop args body).render r s = loopElements r args s >>= fun
      | [] => pure ""
      | _ :: _ => Eval.fail .canceled := by
  rw [Node.render]
  congr 1
  funext items
  cases items with
  | nil => rfl
  | cons item items =>
    rw [Template.renderPasses_cons, Evaluator.checkCanceled_of_canceled canceled, Eval.fail_bind]

/-! ## Main statement -/

/-- Once the work has been canceled, it makes no difference which functions stand behind the
callables: expressions come to the same values, values and expressions to the same texts, templates
to the same renderings, or all of them to the same faults.  A loop does not look at its body, and
contributes no text. -/
theorem canceled_calls_nothing (tools other : Toolbox) (depth : ℕ) (s : Scope) :
    let r := reducerOfDepth tools true depth
    let r' := reducerOfDepth other true depth
    (∀ e, r.reduce e s = r'.reduce e s) ∧ (∀ v, r.writeIn v s = r'.writeIn v s) ∧
      (∀ e, r.reduceToText e s = r'.reduceToText e s) ∧ (∀ t : Template, t.render r s = t.render r' s) ∧
      ∀ args body, (∀ bodyInstead, (Node.loop args body).render r s = (Node.loop args bodyInstead).render r' s) ∧
        ∀ text, (Node.loop args body).render r s = pure text → text = "" := by
  intro r r'
  have same : r = r' := reducerOfDepth_of_canceled tools other depth
  have canceled : r'.canceled = true := reducerOfDepth_canceled other true depth
  rw [same]
  refine ⟨fun _ => rfl, fun _ => rfl, fun _ => rfl, fun _ => rfl, fun args body => ⟨fun bodyInstead => ?_, ?_⟩⟩
  · rw [render_loop_of_canceled canceled, render_loop_of_canceled canceled]
  · intro text rendered
    rw [render_loop_of_canceled canceled] at rendered
    obtain ⟨items, -, passed⟩ := Eval.bind_eq_pure_iff.1 rendered
    cases items with
    | nil => exact (Eval.pure_inj.1 passed).symm
    | cons item items => cases passed

end Folio
