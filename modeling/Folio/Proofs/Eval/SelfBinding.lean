import Folio.Builtin.Basic
import Folio.Eval.Machine
import Folio.Proofs.Eval.Outcome
import Folio.Proofs.Scope.SelfBinding
import Folio.Proofs.SitePath

/-!
# Evaluation sees through self-bindings

Evaluation in a scope inside another that binds names to themselves comes to the same end as
in the outer one.  Names stand for the same bindings in both; but a name that nothing else
binds counts as bound in the inner scope only, and is its own text there.  Wherever a
binding is asked for, such a text has the effect of no binding at all: `lang` is no language
that is known, the directory of `path` is that of the front page, and the others want an
entry or a list.

Main statement: `reduce_selfBindAll`.
-/

namespace Folio

open Scope (Padded)

variable {α β : Type}

/-! ## Steps of an evaluation -/

theorem Eval.bind_congr {x : Eval α} {f g : α → Eval β} (same : ∀ a, x = pure a → f a = g a) :
    x >>= f = x >>= g := by
  match x with
  | none => rfl
  | some (.error fault) => rfl
  | some (.ok a) => exact same a rfl

/-! ## Locales that write alike -/

namespace Locale

/-- The two locales write numbers and dates in the same way. -/
structure Alike (l l' : Locale) : Prop where
  separator : l'.decimalSeparator = l.decimalSeparator
  dates : l'.dateStyle = l.dateStyle

variable {l l' : Locale}

theorem alike_self (l : Locale) : l.Alike l := ⟨rfl, rfl⟩

/-- `lang` is no language, and the locale of its name writes as no locale does. -/
theorem alike_lang : invariant.Alike ⟨"lang"⟩ := by
  constructor <;> decide +kernel

theorem Alike.withSeparator (alike : l.Alike l') (digits : List Char) :
    l'.withSeparator digits = l.withSeparator digits := by
  rw [Locale.withSeparator, Locale.withSeparator, alike.separator]

theorem Alike.floatText (alike : l.Alike l') (x : Float) : l'.floatText x = l.floatText x := by
  rw [Locale.floatText, Locale.floatText, alike.withSeparator]

theorem Alike.timestampText (alike : l.Alike l') (t : Calendar.Timestamp) :
    l'.timestampText t = l.timestampText t := by
  rw [Locale.timestampText, Locale.timestampText, alike.dates]

end Locale

namespace Builtin

variable {l l' : Locale}

theorem write_alike (alike : l.Alike l') (p : NumberPattern) (x : Float) : p.write l' x = p.write l x := by
  simp only [NumberPattern.write, NumberPattern.text, alike.withSeparator]

theorem formatNumber_alike (alike : l.Alike l') (pattern : String) (x : Float) :
    formatNumber l' pattern x = formatNumber l pattern x := by
  simp only [formatNumber, write_alike alike]

theorem formatString_alike (alike : l.Alike l') (pattern s : String) :
    formatString l' pattern s = formatString l pattern s := by
  simp only [formatString, write_alike alike]

theorem formatBy_alike (alike : l.Alike l') (pattern : String) (v : Value) :
    formatBy l' pattern v = formatBy l pattern v := by
  cases v <;> simp only [formatBy, formatNumber_alike alike, formatString_alike alike]

theorem formatPlain_alike (alike : l.Alike l') (v : Value) : formatPlain l' v = formatPlain l v := by
  cases v <;> simp only [formatPlain, alike.floatText, alike.timestampText]

theorem format_alike (alike : l.Alike l') (args : List Value) : format l' args = format l args := by
  unfold format
  split <;> simp only [formatPlain_alike alike, formatBy_alike alike]

end Builtin

/-! ## Reducers that see through self-bindings -/

def Evaluator.NamesItself (r : Reducer) : Prop :=
  ∀ name s, '.' ∉ name.toList → s.resolve? name = none → r.reduce (.variable name) s = pure (.str name)

/-- The reducer does not tell a chain of scopes from one with self-bindings put in between. -/
structure Evaluator.Blind (r : Reducer) : Prop where
  reduce : ∀ {s s' : Scope}, Padded s s' → ∀ e, r.reduce e s' = r.reduce e s
  write : ∀ {s s' : Scope} {l l' : Locale}, Padded s s' → l.Alike l' → ∀ v, r.write l' v s' = r.write l v s
  /-- A reducer that finds any value at all is deep enough for names. -/
  namesItself : ∀ {e s v}, r.reduce e s = pure v → r.NamesItself

variable {r : Reducer} {s s' : Scope}

theorem Evaluator.Blind.reduceAll (blind : r.Blind) (padded : Padded s s') (es : List Expr) :
    r.reduceAll es s' = r.reduceAll es s := by
  induction es with
  | nil => rfl
  | cons e es ih => simp only [Evaluator.reduceAll, blind.reduce padded, ih]

/-- A binding that is asked for by name is the same, or it is the name itself where there was
none. -/
theorem Evaluator.Blind.reduceBound?_bind (blind : r.Blind) (padded : Padded s s') (names : r.NamesItself)
    {name : String} (plain : '.' ∉ name.toList) {f : Option Value → Eval β} (same : f (some (.str name)) = f none) :
    r.reduceBound? name s' >>= f = r.reduceBound? name s >>= f := by
  -- A name without a binding may have one inside, and is then reduced to its own text.
  by_cases unbound : s.lookup name = none
  · have nothing := Scope.resolve?_of_lookup unbound
    have left : r.reduceBound? name s = pure none := by rw [Evaluator.reduceBound?, Scoping.seen_bind, unbound]
    have right : r.reduceBound? name s' = pure none ∨ r.reduceBound? name s' = pure (some (.str name)) := by
      rw [Evaluator.reduceBound?, Scoping.seen_bind]
      cases s'.lookup name with
      | none => exact .inl rfl
      | some e =>
        right
        dsimp only
        rw [names name s' plain (by rw [padded.resolve?, nothing]), pure_bind]
    rw [left]
    obtain right | right := right
    · rw [right]
    · rw [right, pure_bind, pure_bind, same]
  · have bound := padded.lookup_isSome unbound
    obtain ⟨e, found⟩ := Option.ne_none_iff_exists'.1 unbound
    obtain ⟨e', found'⟩ := Option.ne_none_iff_exists'.1 bound
    simp only [Evaluator.reduceBound?, Scoping.seen_bind, found, found', blind.reduce padded]

/-- The locales of the two scopes write alike. -/
theorem Evaluator.Blind.locale_bind (blind : r.Blind) (padded : Padded s s') (names : r.NamesItself)
    {f f' : Locale → Eval β} (same : ∀ l l', Locale.Alike l l' → f' l' = f l) :
    r.locale s' >>= f' = r.locale s >>= f := by
  have pointwise : f' = f := funext fun l => same l l (Locale.alike_self l)
  subst pointwise
  simp only [Evaluator.locale, bind_assoc]
  -- Where `lang` is bound to itself, the language is called `lang`.
  refine blind.reduceBound?_bind padded names (by decide) ?_
  simpa using same _ _ Locale.alike_lang

/-! ## Entries -/

theorem CategoryName.property?_blind (blind : r.Blind) (padded : Padded s s') (names : r.NamesItself)
    (c : CategoryName) (name : String) : c.property? r name s' = c.property? r name s := by
  simp only [CategoryName.property?, CategoryName.resolve?, bind_assoc]
  exact blind.reduceBound?_bind padded names (by decide) rfl

theorem TagName.property?_blind (blind : r.Blind) (padded : Padded s s') (names : r.NamesItself)
    (tagName name : String) : TagName.property? r tagName name s' = TagName.property? r tagName name s := by
  simp only [TagName.property?, TagName.resolve?, bind_assoc]
  exact blind.reduceBound?_bind padded names (by decide) rfl

namespace Document

theorem field?_blind (blind : r.Blind) (padded : Padded s s') (d : Document) (name : String) :
    d.field? r name s' = d.field? r name s := by
  rw [field?, field?]
  cases Keyed.get? name d.header with
  | none => rfl
  | some e => simp only [Scoping.inside_bind, scope, blind.reduce (.child d.bindings padded)]

theorem title_blind (blind : r.Blind) (padded : Padded s s') (d : Document) : d.title r s' = d.title r s := by
  simp only [title, d.field?_blind blind padded]

theorem date_blind (blind : r.Blind) (padded : Padded s s') (d : Document) : d.date r s' = d.date r s := by
  simp only [date, d.field?_blind blind padded]

theorem property?_blind (blind : r.Blind) (padded : Padded s s') (d : Document) (name : String) :
    d.property? r name s' = d.property? r name s := by
  simp only [property?, title, date, published, tags, d.field?_blind blind padded]

end Document

namespace Entry

theorem ownProperty?_blind (blind : r.Blind) (padded : Padded s s') (names : r.NamesItself) (e : Entry)
    (name : String) : e.ownProperty? r name s' = e.ownProperty? r name s := by
  cases e with
  | document d => exact d.property?_blind blind padded name
  | categoryName c => exact c.property?_blind blind padded names name
  | tagName tagName => exact TagName.property?_blind blind padded names tagName name
  | path | category | tag | loopItem => rfl

theorem property?_blind (blind : r.Blind) (padded : Padded s s') (names : r.NamesItself) (e : Entry)
    (name : String) : e.property? r name s' = e.property? r name s := by
  simp only [property?, ownProperty?_blind blind padded names]

theorem implicitValue_blind (blind : r.Blind) (padded : Padded s s') (e : Entry) :
    e.implicitValue r s' = e.implicitValue r s := by
  cases e with
  | document d => exact d.title_blind blind padded
  | path | category | categoryName | tag | tagName | loopItem => rfl

end Entry

/-! ## Functions -/

theorem Evaluator.Blind.writeIn (blind : r.Blind) (padded : Padded s s') (names : r.NamesItself) (v : Value) :
    r.writeIn v s' = r.writeIn v s :=
  blind.locale_bind padded names fun _ _ alike => blind.write padded alike v

theorem Evaluator.Blind.reduceToText (blind : r.Blind) (padded : Padded s s') (e : Expr) :
    r.reduceToText e s' = r.reduceToText e s := by
  rw [Evaluator.reduceToText, Evaluator.reduceToText, blind.reduce padded]
  refine Eval.bind_congr fun v reduced => ?_
  exact blind.writeIn padded (blind.namesItself reduced) v

namespace Builtin

/-- Links lead from the front page where no path is bound, and from a path that stands beside it
where `path` is bound to itself: both lie in the same directory. -/
theorem linkSource_relative (blind : r.Blind) (padded : Padded s s') (names : r.NamesItself) (target : SitePath) :
    (do let source ← linkSource r s'; pure (Expr.value (.str (SitePath.relative source target))) : Eval Expr) =
      (do let source ← linkSource r s; pure (Expr.value (.str (SitePath.relative source target)))) := by
  have sameDirectory : (SitePath.parse "path").directory = (SitePath.parse "index.html").directory := by
    decide +kernel
  have self : (targetPath? (.str "path")).getD (SitePath.parse "index.html") = SitePath.parse "path" := rfl
  simp only [linkSource, bind_assoc]
  refine blind.reduceBound?_bind padded names (by decide) ?_
  simp only [pathKey, pure_bind, self, SitePath.relative, sameDirectory]

theorem relative_blind (blind : r.Blind) (padded : Padded s s') (args : List Expr) :
    relative r args s' = relative r args s := by
  cases args with
  | nil => rfl
  | cons arg args =>
    simp only [relative, blind.reduce padded]
    -- A value has been found, so the reducer is deep enough to read names.
    refine Eval.bind_congr fun v reduced => ?_
    split_ifs with leadsOut
    · rfl
    · cases targetPath? v with
      | none => rfl
      | some target => exact linkSource_relative blind padded (blind.namesItself reduced) target

theorem lookup_blind (blind : r.Blind) (padded : Padded s s') (args : List Expr) :
    lookup r args s' = lookup r args s := by
  cases args with
  | nil => rfl
  | cons arg args => simp only [lookup, blind.reduceToText padded]

theorem link_blind (blind : r.Blind) (padded : Padded s s') (className : String) (args : List Expr) :
    link className r args s' = link className r args s := by
  cases args with
  | nil => rfl
  | cons arg args => simp only [link, blind.reduceToText padded]

theorem dateDocuments_blind (blind : r.Blind) (padded : Padded s s') (ds : List Document) :
    dateDocuments r s' ds = dateDocuments r s ds := by
  induction ds with
  | nil => rfl
  | cons d ds ih => simp only [dateDocuments, d.date_blind blind padded, ih]

theorem timeline_blind (blind : r.Blind) (padded : Padded s s') (names : r.NamesItself) :
    timeline r s' = timeline r s := by
  simp only [timeline, dateDocuments_blind blind padded]
  exact blind.reduceBound?_bind padded names (by decide) rfl

theorem currentDocument?_blind (blind : r.Blind) (padded : Padded s s') (names : r.NamesItself) (args : List Expr) :
    currentDocument? r args s' = currentDocument? r args s := by
  cases args with
  | nil => exact blind.reduceBound?_bind padded names (by decide) rfl
  | cons arg args => simp only [currentDocument?, blind.reduce padded]

theorem neighbour_blind (blind : r.Blind) (padded : Padded s s') (names : r.NamesItself) (direction : Direction)
    (args : List Expr) : neighbour direction r args s' = neighbour direction r args s := by
  simp only [neighbour, currentDocument?_blind blind padded names, timeline_blind blind padded names]

theorem runDeferred_blind (blind : r.Blind) (padded : Padded s s') (names : r.NamesItself) (name : String)
    (args : List Expr) : runDeferred name r args s' = runDeferred name r args s := by
  simp only [runDeferred, relative_blind blind padded, lookup_blind blind padded, link_blind blind padded,
    neighbour_blind blind padded names]

end Builtin

/-! ## The evaluator -/

theorem follow_blind (blind : r.Blind) (padded : Padded s s') (names : r.NamesItself) (v : Value)
    (properties : List String) : r.follow s' v properties = r.follow s v properties := by
  induction properties generalizing v with
  | nil => cases v <;> rfl
  | cons name properties ih =>
    cases v with
    | entry e =>
      simp only [Evaluator.follow, e.property?_blind blind padded names, ih]
    | null | bool | int | float | str | date | list | callable => rfl

theorem reduceVariable_blind (blind : r.Blind) (padded : Padded s s') (name : String) :
    r.reduceVariable name s' = r.reduceVariable name s := by
  simp only [Evaluator.reduceVariable]
  cases SitePath.pieces (· == '.') name.toList with
  | nil => rfl
  | cons head properties =>
    simp only [Scoping.seen_bind, padded.resolve?]
    cases s.resolve? (String.ofList head) with
    | none => rfl
    | some e =>
      simp only [blind.reduce padded]
      refine Eval.bind_congr fun v reduced => ?_
      exact follow_blind blind padded (blind.namesItself reduced) v _

theorem apply_blind (blind : r.Blind) (padded : Padded s s') (function : Expr) (args : List Expr) :
    r.apply Builtin.toolbox function args s' = r.apply Builtin.toolbox function args s := by
  simp only [Evaluator.apply, blind.reduce padded, blind.reduceAll padded]
  refine Eval.bind_congr fun v reduced => ?_
  have names := blind.namesItself reduced
  cases v with
  | callable c =>
    refine Eval.bind_congr fun _ _ => ?_
    cases c.style with
    | deferred =>
      simp only [Builtin.toolbox, Builtin.tools, Builtin.runDeferred_blind blind padded names]
    -- The function that is called here asks for the locale, and for no binding besides.
    | contextual =>
      refine Eval.bind_congr fun values _ => ?_
      refine blind.locale_bind padded names fun l l' alike => ?_
      simp only [Scoping.seen_bind, Builtin.toolbox, Builtin.tools, Builtin.format_alike alike]
    | strict => rfl
  | null | bool | int | float | str | date | list | entry => rfl

theorem reduceStep_blind (blind : r.Blind) (padded : Padded s s') (e : Expr) :
    r.reduceStep Builtin.toolbox e s' = r.reduceStep Builtin.toolbox e s := by
  cases e with
  | value v => rfl
  | «variable» name => exact reduceVariable_blind blind padded name
  | array items => simp only [Evaluator.reduceStep, blind.reduceAll padded]
  | apply function args => exact apply_blind blind padded function args

theorem writeAll_blind (blind : r.Blind) (padded : Padded s s') {l l' : Locale} (alike : l.Alike l')
    (vs : List Value) : r.writeAll l' s' vs = r.writeAll l s vs := by
  induction vs with
  | nil => rfl
  | cons v vs ih => simp only [Evaluator.writeAll, blind.write padded alike, ih]

theorem writeStep_blind (blind : r.Blind) (padded : Padded s s') {l l' : Locale} (alike : l.Alike l') (v : Value) :
    r.writeStep l' v s' = r.writeStep l v s := by
  cases v with
  | float x => simp only [Evaluator.writeStep, alike.floatText]
  | date t => simp only [Evaluator.writeStep, alike.timestampText]
  | list items => simp only [Evaluator.writeStep, writeAll_blind blind padded alike]
  | entry e => simp only [Evaluator.writeStep, e.implicitValue_blind blind padded, blind.write padded alike]
  | null | bool | int | str | callable => rfl

theorem reduceVariable_undotted (r : Reducer) {name : String} (undotted : '.' ∉ name.toList) (s : Scope) :
    r.reduceVariable name s =
      match s.resolve? name with
      | none => pure (.str name)
      | some e => r.reduce e s := by
  have single : SitePath.pieces (· == '.') name.toList = [name.toList] :=
    SitePath.pieces_of_absent fun c mem => by
      simpa using fun dot : c = '.' => undotted (dot ▸ mem)
  rw [Evaluator.reduceVariable, single]
  simp only [Scoping.seen_bind, String.ofList_toList]
  cases s.resolve? name with
  | none => rfl
  | some e =>
    have stays : ∀ v, r.follow s v [] = pure v := fun v => by cases v <;> rfl
    simp only [List.map_nil, stays, bind_pure]

theorem reducerOfDepth_blind (canceled : Bool) (depth : Nat) :
    (reducerOfDepth Builtin.toolbox canceled depth).Blind := by
  induction depth with
  | zero =>
    -- Nothing is found at depth 0, so nothing is told apart.
    exact ⟨fun _ _ => rfl, fun _ _ _ => rfl, fun reduced => nomatch reduced⟩
  | succ depth ih =>
    refine ⟨fun padded e => reduceStep_blind ih padded e, fun padded alike v => writeStep_blind ih padded alike v, ?_⟩
    -- One level suffices for a name that stands for nothing.
    intro _ _ _ _ name s undotted unbound
    have named := reduceVariable_undotted (reducerOfDepth Builtin.toolbox canceled depth) undotted s
    rw [unbound] at named
    exact named

/-! ## Layers of self-bindings -/

/-- Evaluating in scopes that bind names to themselves, and writing what is found, is evaluating in
the scope around them, to any depth.  A name stands for its nearest binding to something else, or
for its own text where there is none. -/
theorem reduce_selfBindAll (canceled : Bool) (depth : Nat) (layers : List (List String)) (s : Scope) :
    let r := reducerOfDepth Builtin.toolbox canceled depth
    let deeper := reducerOfDepth Builtin.toolbox canceled (depth + 1)
    (∀ e, r.reduce e (s.selfBindAll layers) = r.reduce e s) ∧
      (∀ e, r.reduceToText e (s.selfBindAll layers) = r.reduceToText e s) ∧
      ∀ name, '.' ∉ name.toList →
        ((∀ e ∈ s.bindingsOf name, e = .variable name) → deeper.reduce (.variable name) s = pure (.str name)) ∧
        ∀ selfs e others, s.bindingsOf name = selfs ++ e :: others → (∀ b ∈ selfs, b = .variable name) →
          e ≠ .variable name → deeper.reduce (.variable name) s = r.reduce e s := by
  intro r deeper
  have blind : r.Blind := reducerOfDepth_blind canceled depth
  have padded := Scope.padded_selfBindAll layers s
  refine ⟨blind.reduce padded, blind.reduceToText padded, fun name undotted => ⟨?_, ?_⟩⟩
  · intro selfs
    have named := reduceVariable_undotted r undotted s
    rw [Scope.resolve?_eq_none_iff.2 selfs] at named
    exact named
  · intro selfs e others bindings self other
    have named := reduceVariable_undotted r undotted s
    rw [Scope.resolve?_eq_some bindings self other] at named
    exact named

/-- `lang` passes by two bindings to itself on its way out, and `title` finds no other. -/
theorem reduce_selfBindAll_lang :
    let s := Scope.child [("lang", .variable "lang"), ("title", .variable "title")]
      (.child [("lang", .variable "lang")] (.root [("lang", .value (.str "ja"))]))
    let r := reducerOfDepth Builtin.toolbox false 2
    r.reduceToText (.variable "title") (s.selfBindAll [["lang"], ["title", "path"]]) = pure "title" ∧
      r.reduce (.variable "lang") s = pure (.str "ja") ∧ r.reduce (.variable "title") s = pure (.str "title") := by
  intro s r
  obtain ⟨-, texts, -⟩ := reduce_selfBindAll false 2 [["lang"], ["title", "path"]] s
  obtain ⟨-, -, names⟩ := reduce_selfBindAll false 1 [] s
  have lang := (names "lang" (by decide)).2 [.variable "lang", .variable "lang"] (.value (.str "ja")) []
    (by cbv) (by simp) (by simp)
  have title := (names "title" (by decide)).1 (by
    have only : s.bindingsOf "title" = [.variable "title"] := by cbv
    simp [only])
  refine ⟨?_, lang, title⟩
  rw [texts, Evaluator.reduceToText, title]
  cbv

end Folio
