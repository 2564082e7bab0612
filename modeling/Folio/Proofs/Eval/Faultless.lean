import Folio.Builtin.Basic
import Folio.Proofs.Eval.Canceled
import Folio.Proofs.Expr.CallFree

/-!
# Missing values are no faults

Only an application can fail.  Without applications in an expression, or in what the scope leads to,
an evaluation that ends comes to a value: a name that is bound nowhere is its own text, a property
that is unknown is passed over, a tag or a category that is not in the index answers for itself, and a
locale that is no text is the invariant one.  A template of such expressions fails at most because the
work has been canceled, in a loop that has something to run over.

Main statement: `callFree_never_fails`.
-/

namespace Folio

/-! ## Evaluations that do not fail -/

namespace Eval

variable {α β : Type} {P : α → Prop} {Q : β → Prop} {x : Eval α} {f : α → Eval β}

/-- The evaluation does not fail, and what it comes to, if it ends, is as stated. -/
def Gives (P : α → Prop) (x : Eval α) : Prop :=
  (∀ fault, x ≠ fail fault) ∧ ∀ a, x = pure a → P a

theorem Gives.pure {a : α} (holds : P a) : Gives P (pure a : Eval α) :=
  ⟨nofun, fun _ same => pure_inj.1 same ▸ holds⟩

theorem gives_unfinished : Gives P (unfinished : Eval α) :=
  ⟨nofun, nofun⟩

theorem Gives.bind (first : Gives P x) (rest : ∀ a, P a → Gives Q (f a)) : Gives Q (x >>= f) := by
  match x, first with
  | none, _ => exact gives_unfinished
  | some (.ok a), ⟨_, result⟩ => exact rest a (result a rfl)
  | some (.error fault), ⟨noFault, _⟩ => exact absurd rfl (noFault fault)

end Eval

open Eval (Gives)

def CallFreeIfAny (v? : Option Value) : Prop :=
  ∀ v, v? = some v → v.CallFree

theorem CallFreeIfAny.some {v : Value} (free : v.CallFree) : CallFreeIfAny (some v) := by
  intro v found
  cases found
  exact free

theorem CallFreeIfAny.none : CallFreeIfAny none :=
  nofun

/-- A reducer that does not fail on what calls nothing. -/
structure Evaluator.Faultless (r : Reducer) : Prop where
  reduce : ∀ {e : Expr} {s : Scope}, e.CallFree → s.CallFree → Gives Value.CallFree (r.reduce e s)
  write : ∀ (locale : Locale) {v : Value} {s : Scope}, v.CallFree → s.CallFree →
    Gives (fun _ => True) (r.write locale v s)

variable {r : Reducer} {s : Scope} {d : Document} {e : Expr} {v : Value}

/-! ## Evaluations from the outside -/

namespace Evaluator.Faultless

theorem reduceAll (faultless : r.Faultless) (around : s.CallFree) {es : List Expr} (free : ∀ e ∈ es, e.CallFree) :
    Gives (fun vs => ∀ v ∈ vs, v.CallFree) (r.reduceAll es s) := by
  induction es with
  | nil => exact .pure nofun
  | cons e es ih =>
    obtain ⟨first, rest⟩ := List.forall_mem_cons.1 free
    exact (faultless.reduce first around).bind fun v value =>
      (ih rest).bind fun vs values => .pure (List.forall_mem_cons.2 ⟨value, values⟩)

theorem reduceBound? (faultless : r.Faultless) (around : s.CallFree) (name : String) :
    Gives CallFreeIfAny (r.reduceBound? name s) := by
  rw [Evaluator.reduceBound?, Scoping.seen_bind]
  split
  · exact (faultless.reduce (.variable name) around).bind fun v value => .pure (.some value)
  · exact .pure .none

theorem locale (faultless : r.Faultless) (around : s.CallFree) : Gives (fun _ => True) (r.locale s) := by
  refine (faultless.reduceBound? around "lang").bind fun v? _ => ?_
  split
  · exact .pure trivial
  · exact .pure trivial

theorem writeIn (faultless : r.Faultless) (around : s.CallFree) (free : v.CallFree) :
    Gives (fun _ => True) (r.writeIn v s) :=
  (faultless.locale around).bind fun locale _ => faultless.write locale free around

theorem reduceToText (faultless : r.Faultless) (around : s.CallFree) (free : e.CallFree) :
    Gives (fun _ => True) (r.reduceToText e s) :=
  (faultless.reduce free around).bind fun _ value => faultless.writeIn around value

end Evaluator.Faultless

/-! ## Documents -/

namespace Document

variable (faultless : r.Faultless) (free : d.CallFree) (around : s.CallFree)

include faultless free around

theorem field?_gives (name : String) : Gives CallFreeIfAny (d.field? r name s) := by
  rw [field?]
  split
  · rename_i e bound
    rw [Scoping.inside_bind]
    exact (faultless.reduce (free.header.get? bound) (free.scope around)).bind fun v value => .pure (.some value)
  · exact .pure .none

theorem title_gives : Gives Value.CallFree (d.title r s) := by
  have default : d.defaultTitle.CallFree := CallFree.defaults d ("title", _) List.mem_cons_self
  refine (field?_gives faultless free around "title").bind fun v? value => ?_
  split
  · split
    · exact .pure default
    · exact .pure (.str _)
  · exact .pure default
  · exact .pure default
  · exact .pure (value _ rfl)

theorem date_gives : Gives (fun _ => True) (d.date r s) := by
  refine (field?_gives faultless free around "date").bind fun v? _ => ?_
  split <;> exact .pure trivial

theorem published_gives : Gives (fun _ => True) (d.published r s) := by
  refine (field?_gives faultless free around "published").bind fun v? _ => ?_
  split <;> exact .pure trivial

theorem tags_gives : Gives (fun vs => ∀ v ∈ vs, v.CallFree) (d.tags r s) := by
  refine (field?_gives faultless free around "tags").bind fun v? value => ?_
  split
  · exact .pure (value _ rfl).flatten
  · exact .pure nofun

theorem property?_gives (name : String) : Gives CallFreeIfAny (d.property? r name s) := by
  unfold Document.property?
  split
  · exact .pure (.some (.entry (.path _)))
  · exact .pure (.some (.entry (.path _)))
  · exact (title_gives faultless free around).bind fun v value => .pure (.some value)
  · refine (date_gives faultless free around).bind fun t? _ => ?_
    split
    · exact .pure (.some (.date _))
    · exact .pure (.some .null)
  · exact (published_gives faultless free around).bind fun b _ => .pure (.some (.bool b))
  · exact (tags_gives faultless free around).bind fun vs values => .pure (.some (.list values))
  · refine (field?_gives faultless free around "category").bind fun v? value => .pure (.some ?_)
    cases v? with
    | none => exact .null
    | some v => exact value v rfl
  · exact field?_gives faultless free around name

end Document

/-! ## Entries -/

theorem TagName.property?_gives (faultless : r.Faultless) (around : s.CallFree) (tagName name : String) :
    Gives CallFreeIfAny (TagName.property? r tagName name s) := by
  have resolved : Gives (fun t? => ∀ t, t? = some t → t.CallFree) (TagName.resolve? r tagName s) := by
    refine (faultless.reduceBound? around tagListKey).bind fun v? value => ?_
    split
    · refine .pure fun t found => ?_
      cases value _ rfl with
      | list each => exact findTag?_callFree each found
    · exact .pure nofun
  refine resolved.bind fun t? tag => ?_
  split
  · exact .pure fun v found => (tag _ rfl).property? found
  · split
    · exact .pure (.some (.str _))
    · exact .pure (.some (.list nofun))
    · exact .pure .none

theorem CategoryName.property?_gives (faultless : r.Faultless) (around : s.CallFree) (c : CategoryName) (name : String) :
    Gives CallFreeIfAny (c.property? r name s) := by
  have resolved : Gives (fun c? => ∀ c, c? = some c → c.CallFree) (c.resolve? r s) := by
    refine (faultless.reduceBound? around rootCategoryKey).bind fun v? value => ?_
    split
    · refine .pure fun found known => ?_
      cases value _ rfl with
      | entry inside =>
        cases inside with
        | category free => exact free.find? known
    · exact .pure nofun
  refine resolved.bind fun c? category => ?_
  split
  · exact .pure fun v found => (category _ rfl).property? found
  · split
    · exact .pure (.some (.str _))
    · refine .pure fun v found => ?_
      obtain ⟨parent, -, rfl⟩ := Option.map_eq_some_iff.1 found
      exact .entry (.categoryName parent)
    · refine .pure (.some (.list fun v listed => ?_))
      obtain ⟨crumb, -, rfl⟩ := List.mem_map.1 listed
      exact .entry (.categoryName crumb)
    · exact .pure .none

namespace Entry

variable {entry : Entry}

theorem ownProperty?_gives (faultless : r.Faultless) (around : s.CallFree) (free : entry.CallFree) (name : String) :
    Gives CallFreeIfAny (entry.ownProperty? r name s) := by
  cases free with
  | path p => exact .pure fun v found => SitePath.property?_callFree found
  | document inside => exact Document.property?_gives faultless inside around name
  | category inside => exact .pure fun v found => inside.property? found
  | categoryName c => exact CategoryName.property?_gives faultless around c name
  | tag inside => exact .pure fun v found => inside.property? found
  | tagName named => exact TagName.property?_gives faultless around named name
  | loopItem inside => exact .pure .none

theorem property?_gives (faultless : r.Faultless) (around : s.CallFree) (free : entry.CallFree) (name : String) :
    Gives CallFreeIfAny (entry.property? r name s) := by
  unfold Entry.property?
  split
  · rename_i i
    cases free with
    | loopItem inside =>
      split
      · exact .pure (.some (.int _))
      · exact .pure (.some (.int _))
      · obtain ⟨value⟩ := inside
        exact .pure (.some value)
      · split
        · rename_i inner element
          have unwrapped := inside.unwrapped
          rw [element] at unwrapped
          cases unwrapped with
          | entry element => exact ownProperty?_gives faultless around element name
        · exact .pure .none
  · exact ownProperty?_gives faultless around free name

theorem implicitValue_gives (faultless : r.Faultless) (around : s.CallFree) (free : entry.CallFree) :
    Gives Value.CallFree (entry.implicitValue r s) := by
  cases free with
  | path p => exact .pure (.str _)
  | document inside => exact Document.title_gives faultless inside around
  | category inside => exact .pure (.str _)
  | categoryName c => exact .pure (.str _)
  | tag inside => exact .pure (.str _)
  | tagName named => exact .pure (.str _)
  | loopItem inside =>
    obtain ⟨value⟩ := inside
    exact .pure value

end Entry

/-! ## One step of evaluation -/

namespace Evaluator.Faultless

variable (faultless : r.Faultless) (around : s.CallFree)

include faultless around

theorem follow (names : List String) (free : v.CallFree) : Gives Value.CallFree (r.follow s v names) := by
  induction names generalizing v with
  | nil =>
    unfold Evaluator.follow
    exact .pure free
  | cons name names ih =>
    cases free with
    | entry inside =>
      refine (Entry.property?_gives faultless around inside name).bind fun next? next => ?_
      split
      · exact ih (next _ rfl)
      · exact .pure (.entry inside)
    | null => exact .pure .null
    | bool b => exact .pure (.bool b)
    | int i => exact .pure (.int i)
    | float x => exact .pure (.float x)
    | str text => exact .pure (.str text)
    | date t => exact .pure (.date t)
    | list each => exact .pure (.list each)
    | callable c => exact .pure (.callable c)

theorem reduceVariable (name : String) : Gives Value.CallFree (r.reduceVariable name s) := by
  rw [Evaluator.reduceVariable]
  split
  · exact .pure (.str _)
  · simp only [Scoping.seen_bind]
    split
    · exact .pure (.str _)
    · rename_i e bound
      exact (faultless.reduce (around.resolve? bound) around).bind fun v value => faultless.follow around _ value

theorem reduceStep (tools : Toolbox) (free : e.CallFree) : Gives Value.CallFree (r.reduceStep tools e s) := by
  cases free with
  | value inside => exact .pure inside
  | «variable» name => exact faultless.reduceVariable around name
  | array each => exact (faultless.reduceAll around each).bind fun vs values => .pure (.list values)

theorem writeAll (locale : Locale) {vs : List Value} (free : ∀ v ∈ vs, v.CallFree) :
    Gives (fun _ => True) (r.writeAll locale s vs) := by
  induction vs with
  | nil => exact .pure trivial
  | cons v vs ih =>
    obtain ⟨first, rest⟩ := List.forall_mem_cons.1 free
    exact (faultless.write locale first around).bind fun _ _ => (ih rest).bind fun _ _ => .pure trivial

theorem writeStep (locale : Locale) (free : v.CallFree) : Gives (fun _ => True) (r.writeStep locale v s) := by
  cases free with
  | list each => exact (faultless.writeAll around locale each).bind fun _ _ => .pure trivial
  | entry inside =>
    exact (Entry.implicitValue_gives faultless around inside).bind fun v implicit => faultless.write locale implicit around
  | null | bool | int | float | str | date | callable => exact .pure trivial

end Evaluator.Faultless

/-- Whatever functions there are, and canceled or not. -/
theorem reducerOfDepth_faultless (tools : Toolbox) (canceled : Bool) (depth : ℕ) :
    (reducerOfDepth tools canceled depth).Faultless := by
  -- Names, fields and implicit values are reduced one level further down.
  induction depth with
  | zero => exact ⟨fun _ _ => Eval.gives_unfinished, fun _ _ _ _ _ => Eval.gives_unfinished⟩
  | succ depth ih =>
    exact ⟨fun free around => ih.reduceStep around tools free, fun locale _ _ free around => ih.writeStep around locale free⟩

/-! ## Templates -/

open Template (loopElements renderPasses passScope itemName)

/-- No expression of the node, or of the body of a loop, has an application in it. -/
inductive Node.CallFree : Node → Prop where
  | literal (text : String) : Node.CallFree (.literal text)
  | expression {e : Expr} (inside : e.CallFree) : Node.CallFree (.expression e)
  | loop {args : List Expr} {body : List Node} (source : ∀ e ∈ args, e.CallFree)
      (inside : ∀ node ∈ body, node.CallFree) : Node.CallFree (.loop args body)

theorem loopElements_gives (faultless : r.Faultless) (around : s.CallFree) {args : List Expr}
    (free : ∀ e ∈ args, e.CallFree) : Gives (fun vs => ∀ v ∈ vs, v.CallFree) (loopElements r args s) := by
  unfold loopElements
  split
  · exact .pure nofun
  · refine (faultless.reduce (free _ List.mem_cons_self) around).bind fun v value => ?_
    split
    · cases value with
      | list each => exact .pure each
    · exact .pure nofun

/-- The element of a pass is bound to something that calls nothing. -/
theorem passScope_callFree (around : s.CallFree) (name : String) (count index : ℕ) {item : Value} (free : item.CallFree) :
    (passScope name count index s item).CallFree :=
  (Scope.CallFree.child (List.forall_mem_nil _) around).set name (.value (.entry (.loopItem ⟨free⟩)))

theorem renderPasses_gives (going : r.canceled = false) (around : s.CallFree) {body : Scope → Eval String}
    (each : ∀ {s : Scope}, s.CallFree → Gives (fun _ => True) (body s)) (name : String) (count index : ℕ)
    {items : List Value} (free : ∀ v ∈ items, v.CallFree) :
    Gives (fun _ => True) (renderPasses r body name count s index items) := by
  induction items generalizing index with
  | nil => exact .pure trivial
  | cons item items ih =>
    obtain ⟨first, rest⟩ := List.forall_mem_cons.1 free
    have go : r.checkCanceled = pure () := by rw [Evaluator.checkCanceled, going]; rfl
    rw [Template.renderPasses_cons, go, pure_bind]
    exact (each (passScope_callFree around name count index first)).bind fun _ _ =>
      (ih (index + 1) rest).bind fun _ _ => .pure trivial

mutual

/-- Until the work is canceled a node does not fail. -/
theorem Node.CallFree.render {r : Reducer} {s : Scope} {node : Node} (going : r.canceled = false)
    (faultless : r.Faultless) (around : s.CallFree) (free : node.CallFree) : Gives (fun _ => True) (node.render r s) := by
  cases free with
  | literal text => exact .pure trivial
  | expression inside => exact faultless.reduceToText around inside
  | loop source inside =>
    exact (loopElements_gives faultless around source).bind fun _ items =>
      renderPasses_gives going around (fun within => renderNodes_gives going faultless within inside) _ _ _ items
termination_by sizeOf node

theorem renderNodes_gives {r : Reducer} {s : Scope} {nodes : List Node} (going : r.canceled = false)
    (faultless : r.Faultless) (around : s.CallFree) (free : ∀ node ∈ nodes, node.CallFree) :
    Gives (fun _ => True) (renderNodes r nodes s) := by
  cases nodes with
  | nil => exact .pure trivial
  | cons node more =>
    obtain ⟨first, rest⟩ := List.forall_mem_cons.1 free
    exact (first.render going faultless around).bind fun _ _ =>
      (renderNodes_gives going faultless around rest).bind fun _ _ => .pure trivial
termination_by sizeOf nodes

end

def LoopRuns (r : Reducer) (s : Scope) (args : List Expr) : Prop :=
  ∃ item items, loopElements r args s = pure (item :: items)

/-- Once the work is canceled, only a loop that has something to run over fails. -/
theorem renderNodes_of_canceled (canceled : r.canceled = true) (faultless : r.Faultless) (around : s.CallFree)
    {nodes : List Node} (free : ∀ node ∈ nodes, node.CallFree) {fault : Fault}
    (failed : renderNodes r nodes s = Eval.fail fault) :
    fault = .canceled ∧ ∃ args body, Node.loop args body ∈ nodes ∧ LoopRuns r s args := by
  induction nodes with
  | nil => cases failed
  | cons node more ih =>
    obtain ⟨first, rest⟩ := List.forall_mem_cons.1 free
    rw [renderNodes] at failed
    obtain here | ⟨text, -, later⟩ := Eval.bind_eq_fail_iff.1 failed
    · cases first with
      | literal text => cases here
      | expression inside => exact absurd here ((faultless.reduceToText around inside).1 fault)
      | @loop args body source inside =>
        -- It fails in its source, which calls nothing, or before the first pass.
        rw [render_loop_of_canceled canceled] at here
        obtain noSource | ⟨items, source, passed⟩ := Eval.bind_eq_fail_iff.1 here
        · exact absurd noSource ((loopElements_gives faultless around ‹_›).1 fault)
        · cases items with
          | nil => cases passed
          | cons item items =>
            cases passed
            exact ⟨rfl, args, body, List.mem_cons_self, item, items, source⟩
    · obtain beyond | ⟨texts, -, whole⟩ := Eval.bind_eq_fail_iff.1 later
      · obtain ⟨same, args, body, mem, runs⟩ := ih rest beyond
        exact ⟨same, args, body, List.mem_cons_of_mem _ mem, runs⟩
      · cases whole

/-! ## Main statement -/

/-- Where no application is reached, neither an evaluation nor the writing of its value, in the locale
of the scope or in any other, ever fails, canceled or not.  The rendering of a template fails only
because the work is canceled, and only if one of its loops has something to run over. -/
theorem callFree_never_fails (tools : Toolbox) (canceled : Bool) (depth : ℕ) {s : Scope} (around : s.CallFree) :
    let r := reducerOfDepth tools canceled depth
    (∀ e : Expr, e.CallFree →
      (∀ fault, r.reduce e s ≠ Eval.fail fault) ∧ (∀ fault, r.reduceToText e s ≠ Eval.fail fault) ∧
        ∀ v, r.reduce e s = pure v → ∀ locale fault, r.write locale v s ≠ Eval.fail fault) ∧
    ∀ t : Template, (∀ node ∈ t, node.CallFree) → ∀ fault, t.render r s = Eval.fail fault →
      fault = .canceled ∧ canceled = true ∧ ∃ args body, Node.loop args body ∈ t ∧ LoopRuns r s args := by
  intro r
  have faultless : r.Faultless := reducerOfDepth_faultless tools canceled depth
  have token : r.canceled = canceled := reducerOfDepth_canceled tools canceled depth
  constructor
  · intro e free
    have reduced := faultless.reduce free around
    refine ⟨reduced.1, (faultless.reduceToText around free).1, fun v value locale => ?_⟩
    exact (faultless.write locale (reduced.2 v value) around).1
  · intro t free fault failed
    cases canceled with
    | false => exact absurd failed ((renderNodes_gives token faultless around free).1 fault)
    | true =>
      obtain ⟨same, loop⟩ := renderNodes_of_canceled token faultless around free failed
      exact ⟨same, rfl, loop⟩

/-- A field that the document has not, a name in its title that is bound nowhere, a tag that is in no
index: the text is the name.  The loop over the tags is what the canceled work fails in. -/
theorem callFree_never_fails_canceled :
    let d : Document := ⟨0, .parse "a.md", [("title", .variable "nobody"), ("tags", .value (.list [.entry (.tagName "x")]))]⟩
    let s := Scope.root [("entry", .value (.entry (.document d)))]
    let r := reducerOfDepth Builtin.toolbox true 5
    let t : Template := [.expression (.variable "entry.author"), .loop [.variable "entry.tags"] []]
    s.CallFree ∧ (∀ node ∈ t, node.CallFree) ∧ r.reduceToText (.variable "entry.author") s = pure "nobody" ∧
      t.render r s = Eval.fail .canceled ∧ LoopRuns r s [.variable "entry.tags"] := by
  intro d s r t
  have tags : (Expr.value (.list [.entry (.tagName "x")])).CallFree :=
    .value (.list (List.forall_mem_singleton.2 (.entry (.tagName "x"))))
  have document : d.CallFree := ⟨List.forall_mem_cons.2 ⟨.variable "nobody", List.forall_mem_singleton.2 tags⟩⟩
  have around : s.CallFree := .root (List.forall_mem_singleton.2 (.value (.entry (.document document))))
  have nodes : ∀ node ∈ t, node.CallFree := by
    simp [t, Node.CallFree.expression, Node.CallFree.loop, Expr.CallFree.variable]
  have text : r.reduceToText (.variable "entry.author") s = pure "nobody" := by rfl
  have failed : t.render r s = Eval.fail .canceled := by rfl
  obtain ⟨-, -, args, body, mem, runs⟩ := (callFree_never_fails Builtin.toolbox true 5 around).2 t nodes _ failed
  obtain ⟨rfl, rfl⟩ : args = [.variable "entry.tags"] ∧ body = [] := by simpa [t] using mem
  exact ⟨around, nodes, text, failed, runs⟩

end Folio
