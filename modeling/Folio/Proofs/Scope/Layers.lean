import Folio.Proofs.Eval.Tracks

/-!
# Scopes are layers

A program makes scopes, sets names in them, binds documents and renders templates, in any order and in any
scope that it has.  At all times a name stands for what was set last in the first scope outwards in which it
was ever set.  Rendering makes scopes of its own, for loops and for the fields of documents, and leaves
every name of every other scope as it is, also where it fails.

Main statement: `scopes_are_layers`.
-/

namespace Folio.History

/-- What a program does with the scopes that it has. -/
inductive Operation where
  | root
  | spawn (parent : ℕ)
  | set (scope : ℕ) (name : String) (e : Expr)
  | bind (scope : ℕ) (d : Document)
  /-- The work may have been canceled, and goes down to a depth. -/
  | render (scope : ℕ) (t : Template) (canceled : Bool) (depth : ℕ)

/-- The scope that the program must have for it. -/
def Operation.scope? : Operation → Option ℕ
  | .root => none
  | .spawn parent => some parent
  | .set scope .. => some scope
  | .bind scope _ => some scope
  | .render scope .. => some scope

def rendering (scope : ℕ) (t : Template) (canceled : Bool) (depth : ℕ) : Recorded String :=
  t.render (reducerOfDepth Builtin.tools canceled depth) scope

def perform (h : History) : Operation → History
  | .root => h ++ [.root]
  | .spawn parent => h ++ [.spawn parent]
  | .set scope name e => h ++ [.set scope name e]
  | .bind scope d => ((Recorded.setAll scope d.writes).run h).2
  | .render scope t canceled depth => ((rendering scope t canceled depth).run h).2

def perform? (h : History) (op : Operation) : Option History :=
  if op.scope?.all (· < h.size) then some (h.perform op) else none

/-- What a program does from the start, one operation after the other. -/
def performAll? (ops : List Operation) : Option History :=
  ops.foldlM perform? []

variable {h h' : History} {scope : ℕ}

/-- Rendering in a forest comes to the same end as rendering in the chain of the scope, and only makes scopes of
its own. -/
theorem tracks_rendering (inside : scope < h.size) (t : Template) (canceled : Bool) (depth : ℕ) :
    Tracks h (rendering scope t canceled depth)
      (t.render (reducerOfDepth Builtin.toolbox canceled depth) (h.forest.scope scope)) :=
  Recorder.tracks_renderNodes (Recorder.follows_reducerOfDepth canceled depth) t ⟨inside, Scope.alike_self _⟩

/-- An operation only speaks of scopes that are there. -/
theorem Sound.perform? (sound : h.Sound) {op : Operation} (performed : h.perform? op = some h') : h'.Sound := by
  rw [History.perform?] at performed
  split_ifs at performed with there
  cases performed
  cases op with
  | root => exact sound.root
  | spawn parent => exact sound.spawn (by simpa [Operation.scope?] using there)
  | set scope name e => exact sound.set (by simpa [Operation.scope?] using there) name e
  | bind scope d =>
    have inside : scope < h.size := by simpa [Operation.scope?] using there
    obtain ⟨h', ran, grown, -⟩ := Recorded.setAll_apply sound (Nat.zero_le _) inside d.writes
    rw [perform, ran]
    exact grown
  | render scope t canceled depth =>
    have inside : scope < h.size := by simpa [Operation.scope?] using there
    exact (tracks_rendering inside t canceled depth).grows.sound sound

theorem sound_foldlM {start : History} {ops : List Operation} (sound : start.Sound)
    (performed : ops.foldlM History.perform? start = some h) : h.Sound := by
  induction ops generalizing start with
  | nil =>
    obtain rfl : start = h := by simpa using performed
    exact sound
  | cons op ops ih =>
    rw [List.foldlM_cons] at performed
    obtain ⟨next, first, later⟩ := Option.bind_eq_some_iff.1 performed
    exact ih (sound.perform? first) later

/-- Whatever a program does with scopes, a name stands for what was set last in the first scope outwards in
which it was ever set, and evaluation sees this binding in the chain of the scope.  Setting a name changes
what this name stands for, and only in the scopes from which it is the first one outwards that has it.
Rendering a template comes to the end that it comes to in the chain of the scope, and whether this is a text
or a failure, each name stands for the same as before in every scope that was there before. -/
theorem scopes_are_layers {ops : List Operation} (performed : performAll? ops = some h) :
    (∀ i name, h.forest.lookupHolder i name =
      (h.outward i).findSome? fun s => (h.lastSet? s name).map fun e => (e, s)) ∧
    (∀ i name, (h.forest.scope i).lookupHolder name =
      (h.forest.lookupHolder i name).map fun found => (found.1, h.forest.scope found.2)) ∧
    (∀ scope < h.size, ∀ name e i key,
      (key = name ∧ h.Reaches i scope name →
        (h.perform (.set scope name e)).forest.lookupHolder i key = some (e, scope)) ∧
      (¬ (key = name ∧ h.Reaches i scope name) →
        (h.perform (.set scope name e)).forest.lookupHolder i key = h.forest.lookupHolder i key)) ∧
    ∀ scope < h.size, ∀ t canceled depth,
      ((rendering scope t canceled depth).run h).1 =
        t.render (reducerOfDepth Builtin.toolbox canceled depth) (h.forest.scope scope) ∧
      ∀ i < h.size, ∀ name,
        (h.perform (.render scope t canceled depth)).forest.lookupHolder i name = h.forest.lookupHolder i name := by
  have sound : h.Sound := sound_foldlM .refl performed
  refine ⟨lookupHolder_eq sound, h.forest.lookupHolder_scope,
    fun scope inside => lookupHolder_set sound inside, fun scope inside t canceled depth => ?_⟩
  have tracks := tracks_rendering inside t canceled depth
  exact ⟨tracks.outcome, fun i old name => tracks.grows.lookupHolder_eq old name⟩

/-- A page has its own title and renders a template that fails after a loop; the site has its title before and
after. -/
theorem scopes_are_layers_failing :
    let site : History := [.root, .set 0 "title" (.value (.str "site")), .spawn 0, .set 1 "title" (.value (.str "page"))]
    let t : Template := [.loop [.array [.value (.int 1)]] [.expression (.variable "title")], .expression (.apply (.value .null) [])]
    performAll? [.root, .set 0 "title" (.value (.str "site")), .spawn 0, .set 1 "title" (.value (.str "page"))] = some site ∧
      site.forest.lookupHolder 1 "title" = some (.value (.str "page"), 1) ∧
      ((rendering 1 t false 3).run site).1 = Eval.fail (.call (.notFunction "''" "null")) ∧
      (site.perform (.render 1 t false 3)).size = 3 ∧
      ∀ name, (site.perform (.render 1 t false 3)).forest.lookupHolder 0 name = site.forest.lookupHolder 0 name := by
  intro site t
  have performed : performAll? [.root, .set 0 "title" (.value (.str "site")), .spawn 0,
    .set 1 "title" (.value (.str "page"))] = some site := rfl
  obtain ⟨looked, -, -, rendered⟩ := scopes_are_layers performed
  obtain ⟨outcome, kept⟩ := rendered 1 (by decide) t false 3
  refine ⟨performed, ?_, ?_, ?_, kept 0 (by decide)⟩
  · rw [looked]
    cbv
  · rw [outcome]
    cbv
  · cbv

end Folio.History
