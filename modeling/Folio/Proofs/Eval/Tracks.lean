import Folio.Proofs.Eval.Outcome
import Folio.Proofs.Eval.Recorded

/-!
# Evaluation in a forest is evaluation of chains

With scopes by number in a forest evaluation comes to the same end as with the chains that these numbers
stand for, and whatever end it comes to, the forest only has more scopes after it: no name was set in one
that was there before.

Main statements: `Recorder.follows_reducerOfDepth` and `Recorder.tracks_renderNodes`.
-/

namespace Folio

/-! ## Chains that bind alike -/

namespace Scope

/-- Layer by layer the two chains have the same bindings. -/
inductive Alike : Scope → Scope → Prop where
  | root {own own' : Fields} (same : ∀ name, Keyed.get? name own' = Keyed.get? name own) : Alike (.root own) (.root own')
  | child {own own' : Fields} {outer outer' : Scope} (same : ∀ name, Keyed.get? name own' = Keyed.get? name own)
      (around : Alike outer outer') : Alike (.child own outer) (.child own' outer')

/-- Binds several names in a scope, one after the other. -/
def setAll : Fields → Scope → Scope
  | [], s => s
  | (name, e) :: fields, s => setAll fields (s.set name e)

theorem setAll_child (fields own : Fields) (s : Scope) :
    setAll fields (.child own s) = .child (Keyed.setAll fields own) s := by
  induction fields generalizing own with
  | nil => rfl
  | cons field fields ih => exact ih _

theorem alike_self (s : Scope) : s.Alike s := by
  induction s with
  | root own => exact .root fun _ => rfl
  | child own outer ih => exact .child (fun _ => rfl) ih

variable {s s' : Scope}

theorem Alike.lookup_eq (alike : s.Alike s') (name : String) : s'.lookup name = s.lookup name := by
  induction alike with
  | @root own own' same =>
    simp only [lookup, lookupHolder, same]
    cases Keyed.get? name own <;> rfl
  | @child own own' outer outer' same around ih =>
    simp only [lookup, lookupHolder, same] at ih ⊢
    cases Keyed.get? name own with
    | some e => rfl
    | none => exact ih

theorem Alike.resolve?_eq (alike : s.Alike s') (name : String) : s'.resolve? name = s.resolve? name := by
  induction alike with
  | root same => rw [resolve?, resolve?, same]
  | child same around ih => rw [resolve?, resolve?, same, ih]

theorem Alike.literalLookup_eq (alike : s.Alike s') : s'.literalLookup = s.literalLookup := by
  funext name
  rw [Scope.literalLookup, Scope.literalLookup, alike.lookup_eq]

end Scope

/-- In the history this is the number of a scope that looks like the chain. -/
structure Stands (h : History) (i : ℕ) (s : Scope) : Prop where
  inside : i < h.size
  alike : s.Alike (h.forest.scope i)

/-- From the history on, the evaluation in the forest comes to the end of the other one, and adds to the forest
only scopes and names in these. -/
structure Tracks {α : Type} (h : History) (x : Recorded α) (y : Eval α) : Prop where
  outcome : (x.run h).1 = y
  grows : Grows h (x.run h).2

variable {α β : Type} {h h' : History} {i : ℕ} {s : Scope}

theorem Stands.grow (stands : Stands h i s) (grown : Grows h h') : Stands h' i s where
  inside := stands.inside.trans_le grown.size_le
  alike := by rw [grown.scope_eq stands.inside]; exact stands.alike

/-! ## Tracking step by step -/

namespace Recorded

variable {x : Recorded α} {a : α}

theorem run_bind (x : Recorded α) (f : α → Recorded β) (h : History) :
    (x >>= f).run h = match x.run h with
      | (some (.ok a), h) => (f a).run h
      | (some (.error fault), h) => (some (.error fault), h)
      | (none, h) => (none, h) :=
  rfl

theorem run_bind_of_eq (ran : x.run h = (pure a, h')) (f : α → Recorded β) : (x >>= f).run h = (f a).run h' := by
  rw [run_bind, ran]
  rfl

end Recorded

namespace Tracks

theorem pure (h : History) (a : α) : Tracks h (Pure.pure a) (Pure.pure a) := ⟨rfl, .refl⟩

theorem ofEval (h : History) (y : Eval α) : Tracks h (.ofEval y) y := ⟨rfl, .refl⟩

/-- What comes after goes on from a history that has grown. -/
theorem bind {x : Recorded α} {y : Eval α} {f : α → Recorded β} {g : α → Eval β} (first : Tracks h x y)
    (next : ∀ a h', Grows h h' → Tracks h' (f a) (g a)) : Tracks h (x >>= f) (y >>= g) := by
  obtain ⟨outcome, grows⟩ := first
  have step := Recorded.run_bind x f h
  generalize x.run h = result at outcome grows step
  obtain ⟨value, h'⟩ := result
  obtain rfl : value = y := outcome
  match value with
  | some (.ok a) =>
    have later := next a h' grows
    exact ⟨by rw [step]; exact later.outcome, by rw [step]; exact grows.trans later.grows⟩
  | some (.error fault) => exact ⟨by rw [step]; rfl, by rw [step]; exact grows⟩
  | none => exact ⟨by rw [step]; rfl, by rw [step]; exact grows⟩

/-- A look at a scope sees the chain that it has then. -/
theorem seen {f : Scope → Recorded β} {y : Eval β} (next : Tracks h (f (h.forest.scope i)) y) :
    Tracks h (Recorded.seen i >>= f) y :=
  ⟨next.outcome, next.grows⟩

end Tracks

/-! ## Making scopes -/

namespace Recorded

/-- Names are set in a scope one after the other, and in no other. -/
theorem setAll_apply {base : History} (grown : Grows base h) (new : base.size ≤ i) (inside : i < h.size)
    (fields : Fields) :
    ∃ h', (setAll i fields).run h = (pure (), h') ∧ Grows base h' ∧ i < h'.size ∧
      h'.forest.scope i = (h.forest.scope i).setAll fields := by
  induction fields generalizing h with
  | nil => exact ⟨h, rfl, grown, inside, rfl⟩
  | cons field fields ih =>
    obtain ⟨name, e⟩ := field
    have size : i < h.forest.size := by rwa [Forest.size, History.length_nodes]
    obtain ⟨h', ran, grown', inside', seen⟩ :=
      ih (h := h ++ [.set i name e]) (.set grown new inside) (by simpa using inside)
    refine ⟨h', ran, grown', inside', seen.trans ?_⟩
    rw [Scope.setAll, ← h.forest.scope_set size, History.forest_concat]
    rfl

theorem grows_spawn (stands : Stands h i s) :
    Grows h (h ++ [.spawn i]) ∧ h.size < History.size (h ++ [.spawn i]) ∧
      (History.forest (h ++ [.spawn i])).scope h.size = .child [] (h.forest.scope i) := by
  have size : h.forest.size = h.size := h.length_nodes
  refine ⟨.spawn .refl stands.inside, by simp, ?_⟩
  rw [History.forest_concat, ← size]
  exact h.forest.scope_spawn (size ▸ stands.inside)

end Recorded

theorem Document.foldl_withDefault (d : Document) (defaults : List (String × Value)) (fields : Fields) :
    defaults.foldl d.withDefault fields =
      Keyed.setAll ((defaults.filter fun (key, _) => (Keyed.get? key d.header).all Document.isBlankLiteral).map
        fun (key, value) => (key, .value value)) fields := by
  induction defaults generalizing fields with
  | nil => rfl
  | cons default defaults ih =>
    obtain ⟨key, value⟩ := default
    rw [List.foldl_cons, ih, withDefault]
    cases known : Keyed.get? key d.header with
    | none => simp [known, Keyed.setAll]
    | some e =>
      cases blank : Document.isBlankLiteral e with
      | true => simp [known, blank, Keyed.setAll]
      | false => simp [known, blank]

/-- Set one after the other, the names of a document stand for what it binds. -/
theorem Document.get?_writes (d : Document) (name : String) :
    Keyed.get? name (Keyed.setAll d.writes []) = Keyed.get? name d.bindings := by
  have split (a b known : Fields) : Keyed.setAll (a ++ b) known = Keyed.setAll b (Keyed.setAll a known) :=
    List.foldl_append
  have bound : d.bindings = Keyed.setAll [("path", .value (.entry (.path d.path))),
      ("markdownPath", .value (.entry (.path d.source)))] (d.defaults.foldl d.withDefault d.header) := rfl
  rw [bound, foldl_withDefault, writes, split, split]
  simp only [Keyed.get?_setAll, List.reverse_reverse]
  rw [show Keyed.get? name ([] : Fields) = none from rfl, Option.or_none]

namespace Recorder

variable {f : ℕ → Recorded β} {y : Eval β}

/-- A scope that is made and bound to names stands for a chain with these in front. -/
theorem tracks_make (stands : Stands h i s) {fields own : Fields}
    (same : ∀ name, Keyed.get? name (Keyed.setAll fields []) = Keyed.get? name own)
    (next : ∀ scope h', Grows h h' → Stands h' scope (.child own s) → Tracks h' (f scope) y) :
    Tracks h (Recorded.make i fields >>= f) y := by
  obtain ⟨grown, inside, made⟩ := Recorded.grows_spawn stands
  obtain ⟨h', set, grown', inside', seen⟩ := Recorded.setAll_apply grown le_rfl inside fields
  rw [made, Scope.setAll_child] at seen
  have alike : (Scope.child own s).Alike (h'.forest.scope h.size) := seen ▸ .child same stands.alike
  have spawned : (Recorded.spawn i).run h = (pure h.size, h ++ [.spawn i]) := rfl
  have ran : (Recorded.make i fields).run h = (pure h.size, h') := by
    rw [Recorded.make, Recorded.run_bind_of_eq spawned, Recorded.run_bind_of_eq set]
    rfl
  have later := next h.size h' grown' ⟨inside', alike⟩
  have step := Recorded.run_bind_of_eq ran f
  exact ⟨step ▸ later.outcome, step ▸ grown'.trans later.grows⟩

/-! ## Expressions and names -/

/-- The recorder does in a forest what the reducer does. -/
structure Follows (q : Recorder) (r : Reducer) : Prop where
  canceled : q.canceled = r.canceled
  reduce : ∀ {h : History} {i : ℕ} {s : Scope}, Stands h i s → ∀ e, Tracks h (q.reduce e i) (r.reduce e s)
  write : ∀ {h : History} {i : ℕ} {s : Scope}, Stands h i s → ∀ locale v,
    Tracks h (q.write locale v i) (r.write locale v s)

section

variable {q : Recorder} {r : Reducer} (follows : Follows q r)

include follows

theorem tracks_checkCanceled (h : History) : Tracks h q.checkCanceled r.checkCanceled := by
  rw [Evaluator.checkCanceled, Evaluator.checkCanceled, follows.canceled]
  split
  · exact .ofEval h _
  · exact .pure h ()

theorem tracks_reduceAll (stands : Stands h i s) (es : List Expr) :
    Tracks h (q.reduceAll es i) (r.reduceAll es s) := by
  induction es generalizing h with
  | nil => exact .pure h []
  | cons e es ih =>
    refine (follows.reduce stands e).bind fun v h grown => ?_
    exact (ih (stands.grow grown)).bind fun vs h _ => .pure h (v :: vs)

theorem tracks_reduceBound? (stands : Stands h i s) (name : String) :
    Tracks h (q.reduceBound? name i) (r.reduceBound? name s) := by
  refine .seen ?_
  rw [Evaluator.reduceBound?, Scoping.seen_bind, stands.alike.lookup_eq]
  cases s.lookup name with
  | none => exact .pure h none
  | some e => exact (follows.reduce stands _).bind fun v h _ => .pure h (some v)

theorem tracks_locale (stands : Stands h i s) : Tracks h (q.locale i) (r.locale s) := by
  refine (tracks_reduceBound? follows stands "lang").bind fun v h _ => ?_
  obtain _ | v := v
  · exact .pure h _
  · cases v <;> exact .pure h _

theorem tracks_writeIn (stands : Stands h i s) (v : Value) : Tracks h (q.writeIn v i) (r.writeIn v s) :=
  (tracks_locale follows stands).bind fun locale _ grown => follows.write (stands.grow grown) locale v

theorem tracks_reduceToText (stands : Stands h i s) (e : Expr) :
    Tracks h (q.reduceToText e i) (r.reduceToText e s) :=
  (follows.reduce stands e).bind fun v _ grown => tracks_writeIn follows (stands.grow grown) v

/-! ## Entries -/

/-- The scope of a document is made in the forest, and what is then done there is done outside of it. -/
theorem tracks_field? (stands : Stands h i s) (d : Document) (name : String) :
    Tracks h (d.field? q name i) (d.field? r name s) := by
  rw [Document.field?, Document.field?]
  cases Keyed.get? name d.header with
  | none => exact .pure h none
  | some e =>
    refine tracks_make stands d.get?_writes fun scope h _ inner => ?_
    exact (follows.reduce inner e).bind fun v h _ => .pure h (some v)

theorem tracks_title (stands : Stands h i s) (d : Document) : Tracks h (d.title q i) (d.title r s) := by
  refine (tracks_field? follows stands d "title").bind fun v h _ => ?_
  obtain _ | v := v
  · exact .pure h _
  · cases v <;> exact .pure h _

theorem tracks_date (stands : Stands h i s) (d : Document) : Tracks h (d.date q i) (d.date r s) := by
  refine (tracks_field? follows stands d "date").bind fun v h _ => ?_
  obtain _ | v := v
  · exact .pure h _
  · cases v <;> exact .pure h _

theorem tracks_published (stands : Stands h i s) (d : Document) :
    Tracks h (d.published q i) (d.published r s) := by
  refine (tracks_field? follows stands d "published").bind fun v h _ => ?_
  obtain _ | v := v
  · exact .pure h _
  · cases v <;> exact .pure h _

theorem tracks_tags (stands : Stands h i s) (d : Document) : Tracks h (d.tags q i) (d.tags r s) := by
  refine (tracks_field? follows stands d "tags").bind fun v h _ => ?_
  cases v <;> exact .pure h _

theorem tracks_documentProperty? (stands : Stands h i s) (d : Document) (name : String) :
    Tracks h (d.property? q name i) (d.property? r name s) := by
  by_cases known : name = "markdownPath" ∨ name = "path" ∨ name = "title" ∨ name = "date" ∨ name = "published" ∨
      name = "tags" ∨ name = "category"
  · obtain rfl | rfl | rfl | rfl | rfl | rfl | rfl := known
    · exact .pure h _
    · exact .pure h _
    · exact (tracks_title follows stands d).bind fun v h _ => .pure h (some v)
    · refine (tracks_date follows stands d).bind fun t h _ => ?_
      cases t <;> exact .pure h _
    · exact (tracks_published follows stands d).bind fun b h _ => .pure h _
    · exact (tracks_tags follows stands d).bind fun vs h _ => .pure h _
    · exact (tracks_field? follows stands d "category").bind fun v h _ => .pure h _
  · -- Any other property is a field of the header.
    simp only [not_or] at known
    rw [Document.property?, Document.property?]
    · exact tracks_field? follows stands d name
    all_goals tauto

theorem tracks_categoryProperty? (stands : Stands h i s) (c : CategoryName) (name : String) :
    Tracks h (c.property? q name i) (c.property? r name s) := by
  have found : Tracks h (c.resolve? q i) (c.resolve? r s) := by
    refine (tracks_reduceBound? follows stands rootCategoryKey).bind fun v h _ => ?_
    obtain _ | (_ | _ | _ | _ | _ | _ | _ | e | _) := v
    case some.entry => cases e <;> exact .pure h _
    all_goals exact .pure h _
  refine found.bind fun category h _ => ?_
  cases category with
  | some category => exact .pure h _
  | none =>
    dsimp only
    split <;> exact .pure h _

theorem tracks_tagProperty? (stands : Stands h i s) (tagName name : String) :
    Tracks h (TagName.property? q tagName name i) (TagName.property? r tagName name s) := by
  have found : Tracks h (TagName.resolve? q tagName i) (TagName.resolve? r tagName s) := by
    refine (tracks_reduceBound? follows stands tagListKey).bind fun v h _ => ?_
    obtain _ | v := v
    · exact .pure h _
    · cases v <;> exact .pure h _
  refine found.bind fun tag h _ => ?_
  cases tag with
  | some tag => exact .pure h _
  | none =>
    dsimp only
    split <;> exact .pure h _

theorem tracks_ownProperty? (stands : Stands h i s) (e : Entry) (name : String) :
    Tracks h (e.ownProperty? q name i) (e.ownProperty? r name s) := by
  cases e with
  | document d => exact tracks_documentProperty? follows stands d name
  | categoryName c => exact tracks_categoryProperty? follows stands c name
  | tagName named => exact tracks_tagProperty? follows stands named name
  | path | category | tag | loopItem => exact .pure h _

theorem tracks_property? (stands : Stands h i s) (e : Entry) (name : String) :
    Tracks h (e.property? q name i) (e.property? r name s) := by
  have own (e : Entry) := tracks_ownProperty? follows stands e name
  cases e with
  | loopItem item =>
    by_cases known : name = "index" ∨ name = "count" ∨ name = "item"
    · obtain rfl | rfl | rfl := known <;> exact .pure h _
    · -- Any other property is asked of the element.
      simp only [not_or] at known
      rw [Entry.property?, Entry.property?]
      · cases item.unwrapped with
        | entry inner => exact own inner
        | null | bool | int | float | str | date | list | callable => exact .pure h _
      all_goals tauto
  | path p => exact own (.path p)
  | document d => exact own (.document d)
  | category c => exact own (.category c)
  | categoryName c => exact own (.categoryName c)
  | tag t => exact own (.tag t)
  | tagName named => exact own (.tagName named)

theorem tracks_implicitValue (stands : Stands h i s) (e : Entry) :
    Tracks h (e.implicitValue q i) (e.implicitValue r s) := by
  cases e with
  | document d => exact tracks_title follows stands d
  | _ => exact .pure h _

/-! ## Functions -/

theorem tracks_linkSource (stands : Stands h i s) : Tracks h (Builtin.linkSource q i) (Builtin.linkSource r s) := by
  refine (tracks_reduceBound? follows stands Builtin.pathKey).bind fun v h _ => ?_
  cases v <;> exact .pure h _

theorem tracks_relative (stands : Stands h i s) (args : List Expr) :
    Tracks h (Builtin.relative q args i) (Builtin.relative r args s) := by
  cases args with
  | nil => exact .pure h _
  | cons arg args =>
    refine (follows.reduce stands arg).bind fun v h grown => ?_
    dsimp only
    split_ifs with leadsOut
    · exact .pure h _
    · cases Builtin.targetPath? v with
      | none => exact .pure h _
      | some target =>
        exact (tracks_linkSource follows (stands.grow grown)).bind fun source h _ => .pure h _

theorem tracks_lookup (stands : Stands h i s) (args : List Expr) :
    Tracks h (Builtin.lookup q args i) (Builtin.lookup r args s) := by
  cases args with
  | nil => exact .pure h _
  | cons arg args => exact (tracks_reduceToText follows stands arg).bind fun name h _ => .pure h _

theorem tracks_dateDocuments (stands : Stands h i s) (documents : List Document) :
    Tracks h (Builtin.dateDocuments q i documents) (Builtin.dateDocuments r s documents) := by
  induction documents generalizing h with
  | nil => exact .pure h []
  | cons d documents ih =>
    refine (tracks_date follows stands d).bind fun date h grown => ?_
    exact (ih (stands.grow grown)).bind fun dated h _ => .pure h _

theorem tracks_timeline (stands : Stands h i s) : Tracks h (Builtin.timeline q i) (Builtin.timeline r s) := by
  refine (tracks_reduceBound? follows stands rootCategoryKey).bind fun v h grown => ?_
  obtain _ | (_ | _ | _ | _ | _ | _ | _ | e | _) := v
  case some.entry =>
    cases e with
    | category root => exact (tracks_dateDocuments follows (stands.grow grown) _).bind fun dated h _ => .pure h _
    | path | document | categoryName | tag | tagName | loopItem => exact .pure h _
  all_goals exact .pure h _

theorem tracks_currentDocument? (stands : Stands h i s) (args : List Expr) :
    Tracks h (Builtin.currentDocument? q args i) (Builtin.currentDocument? r args s) := by
  cases args with
  | nil => exact (tracks_reduceBound? follows stands Builtin.entryKey).bind fun v h _ => .pure h _
  | cons arg args => exact (follows.reduce stands arg).bind fun v h _ => .pure h _

theorem tracks_neighbour (stands : Stands h i s) (direction : Builtin.Direction) (args : List Expr) :
    Tracks h (Builtin.neighbour direction q args i) (Builtin.neighbour direction r args s) := by
  refine (tracks_currentDocument? follows stands args).bind fun current h grown => ?_
  cases current with
  | none => exact .pure h _
  | some current =>
    refine (tracks_timeline follows (stands.grow grown)).bind fun documents h _ => ?_
    cases Builtin.neighbour? direction current.source documents <;> exact .pure h _

theorem tracks_link (stands : Stands h i s) (className : String) (args : List Expr) :
    Tracks h (Builtin.link className q args i) (Builtin.link className r args s) := by
  cases args with
  | nil => exact .pure h _
  | cons arg args =>
    refine (tracks_reduceToText follows stands arg).bind fun url h _ => ?_
    split <;> exact .pure h _

theorem tracks_runDeferred (stands : Stands h i s) (name : String) (args : List Expr) :
    Tracks h (Builtin.runDeferred name q args i) (Builtin.runDeferred name r args s) := by
  by_cases known : name = "relative" ∨ name = "lookup" ∨ name = "older" ∨ name = "newer" ∨ name = "card" ∨ name = "embed"
  · obtain rfl | rfl | rfl | rfl | rfl | rfl := known
    · exact tracks_relative follows stands args
    · exact tracks_lookup follows stands args
    · exact tracks_neighbour follows stands .older args
    · exact tracks_neighbour follows stands .newer args
    · exact tracks_link follows stands _ args
    · exact tracks_link follows stands _ args
  · simp only [not_or] at known
    rw [Builtin.runDeferred, Builtin.runDeferred]
    · exact .pure h _
    all_goals tauto

/-! ## One step of evaluation -/

theorem tracks_follow (stands : Stands h i s) (v : Value) (names : List String) :
    Tracks h (q.follow i v names) (r.follow s v names) := by
  induction names generalizing v h with
  | nil =>
    rw [Evaluator.follow, Evaluator.follow]
    exact .pure h v
  | cons name names ih =>
    cases v with
    | entry e =>
      rw [Evaluator.follow, Evaluator.follow]
      refine (tracks_property? follows stands e name).bind fun next h grown => ?_
      cases next with
      | none => exact .pure h _
      | some next => exact ih (stands.grow grown) next
    | null | bool | int | float | str | date | list | callable => exact .pure h _

theorem tracks_reduceVariable (stands : Stands h i s) (name : String) :
    Tracks h (q.reduceVariable name i) (r.reduceVariable name s) := by
  rw [Evaluator.reduceVariable, Evaluator.reduceVariable]
  cases SitePath.pieces (· == '.') name.toList with
  | nil => exact .pure h _
  | cons head properties =>
    refine .seen ?_
    simp only [Scoping.seen_bind]
    rw [stands.alike.resolve?_eq]
    cases s.resolve? (String.ofList head) with
    | none => exact .pure h _
    | some e =>
      exact (follows.reduce stands e).bind fun v _ grown => tracks_follow follows (stands.grow grown) v _

theorem tracks_apply (stands : Stands h i s) (function : Expr) (args : List Expr) :
    Tracks h (q.apply Builtin.tools function args i) (r.apply Builtin.toolbox function args s) := by
  refine (follows.reduce stands function).bind fun v h grown => ?_
  have stands := stands.grow grown
  cases v with
  | callable c =>
    refine (tracks_checkCanceled follows h).bind fun _ h grown => ?_
    have stands := stands.grow grown
    cases c.style with
    | deferred =>
      refine (tracks_runDeferred follows stands c.name args).bind fun result h grown => ?_
      exact follows.reduce (stands.grow grown) result
    | contextual =>
      refine (tracks_reduceAll follows stands args).bind fun values h grown => ?_
      have stands := stands.grow grown
      refine (tracks_locale follows stands).bind fun locale h grown => ?_
      refine .seen ?_
      rw [Scoping.seen_bind, (stands.grow grown).alike.literalLookup_eq]
      exact .ofEval h _
    | strict => exact (tracks_reduceAll follows stands args).bind fun values h _ => .ofEval h _
  | null | bool | int | float | str | date | list | entry => exact .ofEval h _

theorem tracks_reduceStep (stands : Stands h i s) (e : Expr) :
    Tracks h (q.reduceStep Builtin.tools e i) (r.reduceStep Builtin.toolbox e s) := by
  cases e with
  | value v => exact .pure h v
  | «variable» name => exact tracks_reduceVariable follows stands name
  | array items => exact (tracks_reduceAll follows stands items).bind fun values h _ => .pure h _
  | apply function args => exact tracks_apply follows stands function args

theorem tracks_writeAll (stands : Stands h i s) (locale : Locale) (vs : List Value) :
    Tracks h (q.writeAll locale i vs) (r.writeAll locale s vs) := by
  induction vs generalizing h with
  | nil => exact .pure h []
  | cons v vs ih =>
    refine (follows.write stands locale v).bind fun text h grown => ?_
    exact (ih (stands.grow grown)).bind fun texts h _ => .pure h _

theorem tracks_writeStep (stands : Stands h i s) (locale : Locale) (v : Value) :
    Tracks h (q.writeStep locale v i) (r.writeStep locale v s) := by
  cases v with
  | list items => exact (tracks_writeAll follows stands locale items).bind fun texts h _ => .pure h _
  | entry e =>
    refine (tracks_implicitValue follows stands e).bind fun implicit h grown => ?_
    exact follows.write (stands.grow grown) locale implicit
  | null | bool | int | float | str | date | callable => exact .pure h _

end

/-- To every depth, evaluation in the forest does what evaluation of chains does. -/
theorem follows_reducerOfDepth (canceled : Bool) (depth : ℕ) :
    Follows (reducerOfDepth Builtin.tools canceled depth) (reducerOfDepth Builtin.toolbox canceled depth) := by
  induction depth with
  | zero => exact ⟨rfl, fun _ _ => .ofEval _ _, fun _ _ _ => .ofEval _ _⟩
  | succ depth ih =>
    exact ⟨rfl, fun stands e => tracks_reduceStep ih stands e, fun stands locale v => tracks_writeStep ih stands locale v⟩

/-! ## Templates -/

variable {q : Recorder} {r : Reducer}

theorem tracks_loopElements (follows : Follows q r) (stands : Stands h i s) (args : List Expr) :
    Tracks h (Template.loopElements q args i) (Template.loopElements r args s) := by
  cases args with
  | nil => exact .pure h []
  | cons source args =>
    refine (follows.reduce stands source).bind fun v h _ => ?_
    cases v <;> exact .pure h _

theorem tracks_renderPasses (follows : Follows q r) {body : ℕ → Recorded String} {body' : Scope → Eval String}
    (tracks : ∀ {h i s}, Stands h i s → Tracks h (body i) (body' s)) (stands : Stands h i s) (name : String)
    (count index : ℕ) (items : List Value) :
    Tracks h (Template.renderPasses q body name count i index items) (Template.renderPasses r body' name count s index items) := by
  induction items generalizing h index with
  | nil => exact .pure h ""
  | cons item items ih =>
    refine (tracks_checkCanceled follows h).bind fun _ h grown => ?_
    have stands := stands.grow grown
    refine tracks_make stands (fun _ => rfl) fun scope h grown inner => ?_
    have stands := stands.grow grown
    refine (tracks inner).bind fun first h grown => ?_
    exact (ih (stands.grow grown) _).bind fun rest h _ => .pure h _

mutual

/-- The text of a node is the same, and each pass of a loop has a scope of its own that it is rendered in. -/
theorem tracks_renderNode (follows : Follows q r) (node : Node) {h : History} {i : ℕ} {s : Scope}
    (stands : Stands h i s) : Tracks h (node.render q i) (node.render r s) := by
  cases node with
  | literal text => exact .pure h text
  | expression e => exact tracks_reduceToText follows stands e
  | loop args body =>
    refine (tracks_loopElements follows stands args).bind fun items h grown => ?_
    exact tracks_renderPasses follows (fun inner => tracks_renderNodes follows body inner) (stands.grow grown) _ _ _ _

theorem tracks_renderNodes (follows : Follows q r) (nodes : List Node) {h : History} {i : ℕ} {s : Scope}
    (stands : Stands h i s) : Tracks h (renderNodes q nodes i) (renderNodes r nodes s) := by
  cases nodes with
  | nil => exact .pure h ""
  | cons node more =>
    refine (tracks_renderNode follows node stands).bind fun first h grown => ?_
    exact (tracks_renderNodes follows more (stands.grow grown)).bind fun rest h _ => .pure h _

end

end Recorder

end Folio
