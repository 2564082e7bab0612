import Folio.Build.Survey
import Folio.Proofs.Expr.RoundTrip
import Folio.Proofs.Scope.Below
import Folio.Proofs.Toml.Order
import Folio.Settings.Loading
import Folio.Settings.Validity

/-!
# Names that the settings bind

The metadata of valid settings binds each of its names once, to the value that its entry stands for.
A document gets this value under the name unless the name is read as something else: a truth value, in
any letter case, or a name with properties, of which only the part before the first dot is looked up.

Main statements: `ascending_of_load`, `reduce_metadata_name`.
-/

namespace Folio

open Calendar (Timestamp)
open Command (Invocation)

namespace Settings

/-! ## Order -/

theorem ascending_of_ofTable {table : Toml.Table} {s : Settings} (ordered : (Toml.Value.table table).Ordered)
    (read : ofTable? table = some s) : Keyed.Ascending s.metadata := by
  obtain ⟨fields, known, read⟩ := Option.bind_eq_some_iff.1 read
  obtain ⟨site, -, read⟩ := Option.bind_eq_some_iff.1 read
  obtain ⟨build, -, read⟩ := Option.bind_eq_some_iff.1 read
  obtain ⟨metadata, named, read⟩ := Option.bind_eq_some_iff.1 read
  cases read
  rw [sectionFields?] at known
  split_ifs at known
  cases known
  rw [metadataOf?.eq_def] at named
  split at named
  · cases named
    exact Keyed.ascending_nil
  · rename_i found
    cases named
    obtain ⟨before, after, rfl, -⟩ := List.lookup_eq_some_iff.1 found
    cases ordered with
    | table ascending each =>
      cases each ("metadata", .table metadata) (by simp) with
      | table ascending each => exact ascending
  · cases named

theorem ascending_of_ofText {text : String} {s : Settings} (read : ofText text = .ok s) :
    Keyed.Ascending s.metadata := by
  rw [ofText] at read
  split at read
  · rename_i found
    cases read
    obtain ⟨table, parsed, read⟩ := Option.bind_eq_some_iff.1 found
    exact ascending_of_ofTable (Toml.ordered_of_parse parsed) read
  · cases read

theorem metadata_resolve (s : Settings) (tree : FileTree) (working : Place) (i : Invocation) :
    (s.resolve tree working i).metadata = s.metadata := by
  rw [resolve.eq_def]
  dsimp only
  split <;> rfl

theorem ascending_of_read {tree : FileTree} {working : Place} {path : String} {s : Settings}
    (found : read tree working path = .ok s) : Keyed.Ascending s.metadata := by
  rw [read] at found
  split at found
  · cases found
  · split at found
    · cases found
    · split at found
      · rename_i text
        cases found
        exact ascending_of_ofText text
      · cases found

/-- Whatever settings an invocation works with, the names of their metadata ascend strictly. -/
theorem ascending_of_load {tree : FileTree} {working : Place} {i : Invocation} {s : Settings}
    (loaded : load tree working i = .ok s) : Keyed.Ascending s.metadata := by
  rw [load] at loaded
  dsimp only at loaded
  split at loaded
  · cases found : read tree working (FilePath.join (i.root.getD defaultRoot) i.settings) with
    | error failure =>
      rw [found] at loaded
      cases loaded
    | ok settings =>
      rw [found] at loaded
      cases loaded
      rw [metadata_resolve]
      exact ascending_of_read found
  · cases loaded
    rw [metadata_resolve]
    exact Keyed.ascending_nil

/-! ## Bindings -/

section

variable {s : Settings} {tree : FileTree} {working : Place} {name : String} {v : Toml.Value} {meant : Value}

theorem metadataFault?_eq_none (faultless : metadataFault? (name, v) = none) :
    isIdentifier name.toList = true ∧ ∃ meant, v.meaning? = some meant := by
  rw [metadataFault?] at faultless
  split_ifs at faultless with unnamed nothing
  exact ⟨by simpa using unnamed, Option.ne_none_iff_exists'.1 (by simpa using nothing)⟩

theorem meaning_of_valid (valid : s.fault? tree working = none) (mem : (name, v) ∈ s.metadata) :
    isIdentifier name.toList = true ∧ ∃ meant, v.meaning? = some meant := by
  rw [fault?, Option.or_eq_none_iff, Option.or_eq_none_iff, Option.or_eq_none_iff] at valid
  obtain ⟨-, -, -, faultless⟩ := valid
  exact metadataFault?_eq_none (List.findSome?_eq_none_iff.1 faultless _ mem)

theorem mem_metadataBindings (mem : (name, v) ∈ s.metadata) (means : v.meaning? = some meant) :
    (name, .value meant) ∈ s.metadataBindings :=
  List.mem_filterMap.2 ⟨(name, v), mem, by simp [means]⟩

theorem ascending_metadataBindings (ordered : Keyed.Ascending s.metadata) : Keyed.Ascending s.metadataBindings := by
  simpa only [metadataBindings, Option.map_map, Function.comp_def] using
    ordered.filterMap fun v => v.meaning?.map Expr.value

end

end Settings

/-! ## The scope of the site -/

def Value.isPlain : Value → Bool
  | .entry _ => false
  | _ => true

def Expr.isPlain : Expr → Bool
  | .value v => v.isPlain
  | _ => false

theorem Toml.Value.isPlain_of_meaning {v : Toml.Value} {meant : Folio.Value} (means : v.meaning? = some meant) :
    meant.isPlain = true := by
  cases v with
  | moment m =>
    rw [Toml.Value.meaning?] at means
    split at means
    · cases means
      rfl
    · cases means
      rfl
  | array items =>
    obtain ⟨meanings, -, rfl⟩ := Option.map_eq_some_iff.1 means
    rfl
  | table entries => cases means
  | _ =>
    cases means
    rfl

theorem Builtin.isPlain_bindings (registration : Nat) : ∀ b ∈ Builtin.bindings registration, b.2.isPlain = true := by
  intro b mem
  obtain callable | layout := List.mem_append.1 mem
  · obtain ⟨c, -, rfl⟩ := List.mem_map.1 callable
    rfl
  · rw [List.mem_singleton.1 layout]
    rfl

theorem Builtin.SiteInfo.isPlain_bindings (site : Builtin.SiteInfo) : ∀ b ∈ site.bindings, b.2.isPlain = true := by
  simp [Builtin.SiteInfo.bindings, Expr.isPlain, Value.isPlain]

theorem foldl_set_root (bindings own : Fields) :
    bindings.foldl (fun scope (name, e) => Scope.set name e scope) (.root own) = .root (Keyed.setAll bindings own) := by
  induction bindings generalizing own with
  | nil => rfl
  | cons binding more ih => exact ih _

namespace Settings

variable {s : Settings} {name : String} {meant : Value} {e : Expr}

theorem siteScope_eq (s : Settings) (now : Timestamp) :
    s.siteScope now =
      .root (Keyed.setAll s.metadataBindings (Keyed.setAll (Builtin.bindings 0 ++ (s.siteInfo now).bindings) [])) := by
  rw [siteScope, foldl_set_root, Keyed.setAll, List.foldl_append]
  rfl

/-- The metadata comes last, so that its names stand for what it says. -/
theorem bindingsOf_siteScope (ordered : Keyed.Ascending s.metadata) (mem : (name, .value meant) ∈ s.metadataBindings)
    (now : Timestamp) : (s.siteScope now).bindingsOf name = [.value meant] := by
  rw [siteScope_eq, Scope.bindingsOf, Keyed.get?_setAll_of_mem (ascending_metadataBindings ordered) mem,
    Option.toList_some]

theorem isPlain_metadataBindings (s : Settings) : ∀ b ∈ s.metadataBindings, b.2.isPlain = true := by
  intro b mem
  obtain ⟨⟨name, v⟩, -, same⟩ := List.mem_filterMap.1 mem
  obtain ⟨meant, means, rfl⟩ := Option.map_eq_some_iff.1 same
  exact Toml.Value.isPlain_of_meaning means

/-- Nothing that the scope of the site binds has properties. -/
theorem isPlain_of_siteScope {now : Timestamp} (found : (s.siteScope now).resolve? name = some e) :
    e.isPlain = true := by
  rw [siteScope_eq, Scope.resolve?] at found
  -- What a name stands for was bound to it, by the metadata, the functions or what is known of the site.
  have bound := Keyed.mem_of_get? (Option.filter_eq_some_iff.1 found).1
  obtain named | known := Keyed.mem_setAll bound
  · exact s.isPlain_metadataBindings _ named
  · obtain known | none := Keyed.mem_setAll known
    · obtain builtin | info := List.mem_append.1 known
      · exact Builtin.isPlain_bindings 0 _ builtin
      · exact (s.siteInfo now).isPlain_bindings _ info
    · contradiction

end Settings

/-! ## Names with dots -/

theorem follow_of_isPlain (r : Reducer) (s : Scope) {v : Value} (plain : v.isPlain = true) (names : List String) :
    r.follow s v names = pure v := by
  cases v with
  | entry e => contradiction
  | _ => cases names <;> rfl

/-- Where nothing has properties, a name stands for what the part before one of its dots stands for. -/
theorem reduce_variable_dotted {tools : Toolbox} {canceled : Bool} {s : Scope}
    (plain : ∀ name e, s.resolve? name = some e → e.isPlain = true) (front back : String) (depth : ℕ) :
    (reducerOfDepth tools canceled depth).reduce (.variable (front ++ "." ++ back)) s =
      (reducerOfDepth tools canceled depth).reduce (.variable front) s := by
  cases depth with
  | zero => rfl
  | succ depth =>
    have present : SitePath.pieces (· == '.') front.toList ≠ [] := SitePath.pieces_ne_nil _
    obtain ⟨head, more, cut⟩ := List.exists_cons_of_ne_nil present
    have text : (front ++ "." ++ back).toList = front.toList ++ '.' :: back.toList := by simp
    have whole : SitePath.pieces (· == '.') (front ++ "." ++ back).toList =
        head :: (more ++ SitePath.pieces (· == '.') back.toList) := by
      rw [text, SitePath.pieces_append rfl, cut, List.cons_append]
    show Evaluator.reduceVariable _ _ s = Evaluator.reduceVariable _ _ s
    rw [Evaluator.reduceVariable, Evaluator.reduceVariable, whole, cut]
    simp only [Scoping.seen_bind]
    cases found : s.resolve? (String.ofList head) with
    | none => rfl
    | some e =>
      cases e with
      | value v =>
        -- One level is enough for a value; without any level neither of the two comes to an end.
        cases depth with
        | zero => rfl
        | succ depth =>
          have itself : (reducerOfDepth tools canceled (depth + 1)).reduce (.value v) s = pure v := rfl
          simp only [itself, pure_bind, follow_of_isPlain _ s (plain _ _ found)]
      | _ => cases plain _ _ found

/-! ## Names alone -/

def SpellsTruth (b : Bool) (name : String) : Prop :=
  name.toList.map Char.toLower = (if b then "true" else "false").toList

instance (b : Bool) (name : String) : Decidable (SpellsTruth b name) :=
  inferInstanceAs (Decidable (_ = _))

/-- A name alone is read as a truth value or as itself. -/
theorem parse_name {name : String} (shown : isIdentifier name.toList = true) :
    ∃ e, Expr.parse .list name = .ok e ∧ (∀ b, SpellsTruth b name → e = .value (.bool b)) ∧
      ((∀ b, ¬SpellsTruth b name) → e = .variable name) := by
  have present : name.toList ≠ [] := by
    intro empty
    rw [empty] at shown
    contradiction
  refine ⟨_, parse_bare ⟨present, plain_of_isIdentifier shown⟩, fun b spells => ?_, fun other => ?_⟩
  · cases b <;> simp [classify, show _ = _ from spells]
  · exact classify_name shown (other true) (other false)

namespace Settings

/-- With valid settings, in the order in which all settings are loaded, the name of each entry of the
metadata is bound once, to the value that the entry stands for.  Alone and evaluated in the scope of the
site it gives that value, but for two kinds of names that are not looked up as they stand: one that spells
a truth value is that truth value, and of one with dots only what stands before a dot counts. -/
theorem reduce_metadata_name {s : Settings} {tree : FileTree} {working : Place} {name : String} {v : Toml.Value}
    (ordered : Keyed.Ascending s.metadata) (valid : s.fault? tree working = none) (mem : (name, v) ∈ s.metadata)
    (tools : Toolbox) (canceled : Bool) (depth : ℕ) (now : Timestamp) :
    let r := reducerOfDepth tools canceled (depth + 2)
    ∃ meant, v.meaning? = some meant ∧
      s.metadataBindings.filter (fun b => b.1 = name) = [(name, .value meant)] ∧
      ∃ e, Expr.parse .list name = .ok e ∧
        ((∀ b, ¬SpellsTruth b name) → '.' ∉ name.toList → r.reduce e (s.siteScope now) = pure meant) ∧
        (∀ b, SpellsTruth b name → r.reduce e (s.siteScope now) = pure (.bool b)) ∧
        ∀ front back, name = front ++ "." ++ back →
          r.reduce e (s.siteScope now) = r.reduce (.variable front) (s.siteScope now) := by
  intro r
  obtain ⟨shown, meant, means⟩ := meaning_of_valid valid mem
  have bound := mem_metadataBindings mem means
  obtain ⟨e, read, truth, named⟩ := parse_name shown
  refine ⟨meant, means, (ascending_metadataBindings ordered).filter_key bound, e, read, ?_, ?_, ?_⟩
  · intro other undotted
    rw [named other]
    exact reduce_variable_value undotted (bindingsOf_siteScope ordered bound now) depth
  · intro b spells
    rw [truth b spells]
    rfl
  · rintro front back rfl
    -- A name with a dot spells no truth value, so it is read as a name.
    have other (b : Bool) : ¬SpellsTruth b (front ++ "." ++ back) := by
      intro spells
      have dot : '.' ∈ (if b then "true" else "false").toList := by
        rw [← spells]
        exact List.mem_map.2 ⟨'.', by simp, rfl⟩
      cases b <;> simp at dot
    rw [named other]
    exact reduce_variable_dotted (fun _ _ found => isPlain_of_siteScope found) front back (depth + 2)

theorem reduce_metadata_name_year :
    let tree : FileTree := ⟨[([], .directory), (["c"], .directory), (["t"], .directory)]⟩
    let s : Settings :=
      { Settings.default with build := ⟨some "/", ["/c"], "/o", "/t", false⟩, metadata := [("year", .integer 2024)] }
    s.fault? tree [] = none ∧ Keyed.Ascending s.metadata ∧ ("year", .integer 2024) ∈ s.metadata ∧
      ∃ e, Expr.parse .list "year" = .ok e ∧
        (reducerOfDepth Builtin.toolbox false 2).reduce e (s.siteScope ⟨0, 0, 0⟩) = pure (.int 2024) := by
  intro tree s
  have valid : s.fault? tree [] = none := by decide +kernel
  have ordered : Keyed.Ascending s.metadata := by simp [s, Keyed.Ascending, Keyed.keys]
  have mem : ("year", .integer 2024) ∈ s.metadata := List.mem_singleton_self _
  obtain ⟨meant, means, -, e, read, reduced, -⟩ :=
    reduce_metadata_name ordered valid mem Builtin.toolbox false 0 ⟨0, 0, 0⟩
  cases means
  exact ⟨valid, ordered, mem, e, read, reduced (by decide +kernel) (by decide)⟩

/-- A valid entry under a name with a dot is not found under it. -/
theorem metadata_name_unread :
    let tree : FileTree := ⟨[([], .directory), (["c"], .directory), (["t"], .directory)]⟩
    let s : Settings :=
      { Settings.default with build := ⟨some "/", ["/c"], "/o", "/t", false⟩, metadata := [("a.b", .integer 1)] }
    s.fault? tree [] = none ∧ Keyed.Ascending s.metadata ∧ ("a.b", .integer 1) ∈ s.metadata ∧
      (Toml.Value.integer 1).meaning? = some (.int 1) ∧
      ∃ e, Expr.parse .list "a.b" = .ok e ∧
        (Reducer.ofTools Builtin.toolbox false).reduce e (s.siteScope ⟨0, 0, 0⟩) = pure (.str "a") ∧
        Value.str "a" ≠ .int 1 := by
  intro tree s
  have undotted : '.' ∉ "a".toList := by decide
  have unbound : (s.siteScope ⟨0, 0, 0⟩).resolve? "a" = none := by
    rw [siteScope_eq, Scope.resolve?, Keyed.get?_setAll, Keyed.get?_setAll]
    rfl
  obtain ⟨e, read, -, named⟩ := parse_name (show isIdentifier "a.b".toList = true from by decide +kernel)
  obtain rfl := named (by decide +kernel)
  refine ⟨by decide +kernel, by simp [s, Keyed.Ascending, Keyed.keys], List.mem_singleton_self _, rfl, _, read, ?_,
    by simp⟩
  have plain (name : String) (e : Expr) (found : (s.siteScope ⟨0, 0, 0⟩).resolve? name = some e) : e.isPlain = true :=
    isPlain_of_siteScope found
  exact (reduce_variable_dotted plain "a" "b" maxDepth).trans (reduce_variable_unbound undotted unbound 19999)

end Settings

end Folio
