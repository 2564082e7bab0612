import Folio.Build.Survey
import Folio.Proofs.Category.Partition
import Folio.Proofs.Scope.Below
import Folio.Proofs.Tag.Index

/-!
# What the names in headers stand for

A header names tags and a category.  Once the documents of a site are aggregated and the result
is bound in the root scope, each name leads back to its document: the tag of that name lists the
document, and so does the category at the end of the path.

The values of such header fields do not depend on the scope in which they are read.  So the
names under which a document was aggregated are those that are looked up later.

Main statement: `bindAggregates_answers`.
-/

namespace Folio

open Calendar (Timestamp)
open Scope (Below)
open Text (isBlankText)

/-! ## Headers that name -/

/-- The value of a `tags` field that was read from a text in which only names stand. -/
def NamesTags (e : Expr) : Prop :=
  ∃ text, Expr.parseField "tags" text = .ok e ∧
    ∀ items, parseItems text = .ok items → ∀ item ∈ items, (literalName? item).isSome = true

/-- The value of a `category` field that was read from a text; nothing but names can stand there. -/
def NamesCategory (e : Expr) : Prop :=
  ∃ text, Expr.parseField "category" text = .ok e

/-- The fields of the header that name tags and a category were read from names. -/
structure Document.Named (d : Document) : Prop where
  tags : ∀ e, Keyed.get? "tags" d.header = some e → NamesTags e
  category : ∀ e, Keyed.get? "category" d.header = some e → NamesCategory e

def namedTag (name : String) : Value :=
  .entry (.tagName name)

def tagNames (terms : List Expr) : List String :=
  terms.filterMap fun
    | .value (.entry (.tagName name)) => some name
    | _ => none

def Document.writtenTags (d : Document) : List String :=
  match Keyed.get? "tags" d.header with
  | some (.array terms) => tagNames terms
  | _ => []

def Document.writtenCategory (d : Document) : Option Value :=
  match Keyed.get? "category" d.header with
  | some (.value v) => some v
  | _ => none

theorem tagNames_namedTags (names : List String) : tagNames ((names.map namedTag).map .value) = names := by
  rw [tagNames, List.filterMap_map, List.filterMap_map]
  exact List.filterMap_some

theorem tagTerm_eq {item : Expr} (literal : (literalName? item).isSome = true) :
    ∃ name, tagTerm item = .value (namedTag name) := by
  obtain ⟨name, named⟩ := Option.isSome_iff_exists.1 literal
  exact ⟨name, by rw [tagTerm, named]; rfl⟩

theorem tagTerms_eq {items : List Expr} (literal : ∀ item ∈ items, (literalName? item).isSome = true) :
    ∃ names : List String, items.map tagTerm = (names.map namedTag).map .value := by
  induction items with
  | nil => exact ⟨[], rfl⟩
  | cons item items ih =>
    obtain ⟨first, later⟩ := List.forall_mem_cons.1 literal
    obtain ⟨name, named⟩ := tagTerm_eq first
    obtain ⟨names, others⟩ := ih later
    exact ⟨name :: names, by rw [List.map_cons, named, others]; rfl⟩

theorem NamesTags.eq {e : Expr} (names : NamesTags e) :
    ∃ names : List String, e = .array ((names.map namedTag).map .value) := by
  obtain ⟨text, read, literal⟩ := names
  simp only [Expr.parseField, if_true] at read
  split_ifs at read with blank
  · cases read
    exact ⟨[], rfl⟩
  · split at read
    · rename_i items terms
      cases read
      obtain ⟨names, named⟩ := tagTerms_eq (literal items terms)
      exact ⟨names, by rw [named]⟩
    · cases read

theorem namesTags_of_items {text : String} {items : List Expr} (visible : isBlankText text = false)
    (terms : parseItems text = .ok items) (literal : ∀ item ∈ items, (literalName? item).isSome = true) :
    NamesTags (.array (items.map tagTerm)) := by
  refine ⟨text, ?_, fun others same => ?_⟩
  · rw [Expr.parseField, if_pos rfl, visible, if_neg (by decide), terms]
  · rw [terms] at same
    cases same
    exact literal

theorem namesCategory_of_items {text : String} {items : List Expr} {names : List String}
    (visible : isBlankText text = false) (terms : parseItems text = .ok items)
    (segments : segmentNames items = .ok names) : NamesCategory (.value (categoryOfNames names)) := by
  refine ⟨text, ?_⟩
  rw [Expr.parseField, if_neg (by decide), if_pos rfl, visible, if_neg (by decide), terms]
  simp only [segments]

theorem NamesCategory.eq {e : Expr} (names : NamesCategory e) : ∃ names : List String, e = .value (categoryOfNames names) := by
  obtain ⟨text, read⟩ := names
  simp only [Expr.parseField, if_true, if_neg (show "category" ≠ "tags" by decide)] at read
  split_ifs at read with blank
  · cases read
    exact ⟨[], rfl⟩
  · split at read
    · split at read
      · rename_i names _
        cases read
        exact ⟨names, rfl⟩
      · cases read
    · cases read

/-! ## Reading the fields -/

section Fields

variable {tools : Toolbox} {canceled : Bool} {depth : ℕ} {d : Document}

theorem reduceAll_values (vs : List Value) (s : Scope) :
    (reducerOfDepth tools canceled (depth + 1)).reduceAll (vs.map .value) s = pure vs := by
  induction vs with
  | nil => rfl
  | cons v vs ih =>
    have first : (reducerOfDepth tools canceled (depth + 1)).reduce (.value v) s = pure v := rfl
    rw [List.map_cons, Evaluator.reduceAll, first, pure_bind, ih, pure_bind]

theorem reduce_values (vs : List Value) (s : Scope) :
    (reducerOfDepth tools canceled (depth + 2)).reduce (.array (vs.map .value)) s = pure (.list vs) := by
  change (reducerOfDepth tools canceled (depth + 1)).reduceAll (vs.map .value) s >>= (fun vs => pure (Value.list vs)) = _
  rw [reduceAll_values, pure_bind]

theorem flattenValues_namedTags (names : List String) : flattenValues (names.map namedTag) = names.map namedTag := by
  induction names with
  | nil => rfl
  | cons name names ih => simp [flattenValues, namedTag, Value.flatten, ih]

/-- The tags of a document are exactly the names in its header, wherever they are read. -/
theorem Document.Named.tags_eq (named : d.Named) (s : Scope) :
    d.tags (reducerOfDepth tools canceled (depth + 2)) s = pure (d.writtenTags.map namedTag) := by
  rw [Document.tags, Document.field?, Document.writtenTags]
  cases found : Keyed.get? "tags" d.header with
  | none => rfl
  | some e =>
    obtain ⟨names, rfl⟩ := (named.tags e found).eq
    simp only [Scoping.inside_bind]
    rw [reduce_values, tagNames_namedTags]
    simp only [pure_bind, Value.flatten, flattenValues_namedTags]

/-- The category of a document is exactly what its header names, wherever it is read. -/
theorem Document.Named.category_eq (named : d.Named) (s : Scope) :
    d.field? (reducerOfDepth tools canceled (depth + 1)) "category" s = pure d.writtenCategory := by
  rw [Document.field?, Document.writtenCategory]
  cases found : Keyed.get? "category" d.header with
  | none => rfl
  | some e =>
    obtain ⟨names, rfl⟩ := (named.category e found).eq
    rfl

end Fields

/-! ## Looking names up -/

section Lookup

variable {tools : Toolbox} {canceled : Bool} {depth : ℕ} {own : Fields} {tags : List Tag} {root : Category}
  {s : Scope} {name : String}

def boundRoot (own : Fields) (tags : List Tag) (root : Category) : Scope :=
  (Builtin.aggregateBindings tags root).foldl (fun s (name, e) => s.set name e) (.root own)

/-- The names under which the aggregated tags and categories are bound. -/
def aggregateKeys : List String :=
  [tagListKey, rootCategoryKey]

theorem bindingsOf_tagList (own : Fields) (tags : List Tag) (root : Category) :
    (boundRoot own tags root).bindingsOf tagListKey = [.value (tagListValue tags)] := by
  change (Scope.set rootCategoryKey _ (.root (Keyed.set tagListKey _ own))).bindingsOf tagListKey = _
  rw [Scope.bindingsOf_set_of_ne (by decide)]
  exact Scope.bindingsOf_set_self _ _ own

theorem bindingsOf_rootCategory (own : Fields) (tags : List Tag) (root : Category) :
    (boundRoot own tags root).bindingsOf rootCategoryKey = [.value (.entry (.category root))] :=
  Scope.bindingsOf_set_self _ _ (Keyed.set tagListKey _ own)

theorem findTag?_tags (name : String) (tags : List Tag) :
    findTag? name (tags.map fun t => .entry (.tag t)) = tags.find? fun t => t.name = name := by
  induction tags with
  | nil => rfl
  | cons t tags ih => by_cases same : t.name = name <;> simp [findTag?, same, ih]

theorem TagName.resolve?_eq (below : Below aggregateKeys (boundRoot own tags root) s) (name : String) :
    TagName.resolve? (reducerOfDepth tools canceled (depth + 2)) name s =
      pure (tags.find? fun t => t.name = name) := by
  have bound : s.bindingsOf tagListKey = [.value (tagListValue tags)] := by
    rw [below.bindingsOf (by simp [aggregateKeys]), bindingsOf_tagList]
  rw [TagName.resolve?, reduceBound?_value (by decide) bound, pure_bind]
  simp only [tagListValue, findTag?_tags]

theorem CategoryName.resolve?_eq (below : Below aggregateKeys (boundRoot own tags root) s) (c : CategoryName) :
    c.resolve? (reducerOfDepth tools canceled (depth + 2)) s = pure (root.find? c.path) := by
  have bound : s.bindingsOf rootCategoryKey = [.value (.entry (.category root))] := by
    rw [below.bindingsOf (by simp [aggregateKeys]), bindingsOf_rootCategory]
  rw [CategoryName.resolve?, reduceBound?_value (by decide) bound, pure_bind]

end Lookup

/-! ## The aggregated site -/

section Site

variable {tools : Toolbox} {canceled : Bool} {depth : ℕ} {own : Fields} {documents : List Document}
  {dates : Document → Option Timestamp} {names : Document → List String} {paths : Document → List String}
  {d : Document} {r : Reducer} {s : Scope}

/-- Among documents with identities of their own, one is found by its identity once. -/
theorem filter_id_eq (distinct : (documents.map (·.id)).Nodup) (mem : d ∈ documents) :
    (documents.filter fun e => e.id = d.id) = [d] := by
  induction documents with
  | nil => contradiction
  | cons first documents ih =>
    rw [List.map_cons, List.nodup_cons] at distinct
    obtain ⟨apart, distinct⟩ := distinct
    obtain rfl | later := List.mem_cons.1 mem
    · have others : documents.filter (fun e => e.id = d.id) = [] := by
        rw [List.filter_eq_nil_iff]
        intro e inside same
        exact apart (of_decide_eq_true same ▸ List.mem_map_of_mem inside)
      rw [List.filter_cons_of_pos (by simp), others]
    · have differs : first.id ≠ d.id := fun same => apart (same ▸ List.mem_map_of_mem later)
      rw [List.filter_cons_of_neg (by simpa using differs), ih distinct later]

/-- The path of a document leads to a category of this path, which has the document. -/
theorem exists_category_at (tree : ℕ) (paths : Document → List String) (mem : d ∈ documents) :
    ∃ c, (sortedTree tree documents paths).find? (paths d) = some c ∧ c.path = paths d ∧
      c.node.documents = documents.filter fun e => paths e = paths d := by
  have within := within_longestPath (documents.map fun d => ⟨paths d, d⟩)
  have reached : ((sortedTree tree documents paths).find? (paths d)).isSome :=
    (find?_isSome_iff within _).2 (.inr ⟨⟨paths d, d⟩, List.mem_map_of_mem mem, List.prefix_rfl⟩)
  obtain ⟨c, found⟩ := Option.isSome_iff_exists.1 reached
  have path : c.path = paths d := Category.path_of_find? found
  obtain ⟨below, -, built⟩ := built_of_contains within (Category.contains_of_find? found)
  refine ⟨c, found, path, ?_⟩
  rw [built, buildNode_documents, directMembers_remaining, documentsAt, List.filter_map, List.map_map, path]
  simp [Function.comp_def]

/-- What is bound, once all that the documents say of themselves can be told. -/
theorem bindAggregates_eq (dated : ∀ d ∈ documents, d.date r (.root own) = pure (dates d))
    (tagged : ∀ d ∈ documents, d.tags r (.root own) = pure ((names d).map namedTag))
    (placed : ∀ d ∈ documents, d.categoryPath r (.root own) = pure (paths d)) :
    ∃ firstId tree, bindAggregates r (.root own) documents =
      pure (boundRoot own (tagsOfGroups firstId (groupsOf dates names documents)) (sortedTree tree documents paths)) := by
  have named : ∀ d ∈ documents, tagNamesOf r (.root own) ((names d).map namedTag) = pure (names d) := by
    intro d _
    rw [tagNamesOf_eq_pure, List.forall₂_map_left_iff, List.forall₂_same]
    exact fun name _ => rfl
  rw [bindAggregates]
  simp only [tagIndex_eq dated tagged named, categoryTree_eq placed, pure_bind]
  exact ⟨_, _, rfl⟩

end Site

/-- In this scope the names in the header of the document lead back to the document. -/
structure Document.Answered (d : Document) (r : Reducer) (s : Scope) (documents : List Document) : Prop where
  /-- The tag of each name that is not blank lists the document once, and besides it only documents
  that carry a tag of this name. -/
  tags : ∃ values, d.tags r s = pure values ∧ ∀ v ∈ values, ∃ name, v = namedTag name ∧
    (isBlankText name = false → ∃ t, TagName.resolve? r name s = pure (some t) ∧ t.name = name ∧
      (t.documents.filter fun e => e.id = d.id) = [d] ∧
      ∀ e ∈ t.documents, e ∈ documents ∧ ∃ values, e.tags r s = pure values ∧ namedTag name ∈ values)
  /-- The category is at the end of the path of names, and has the document once. -/
  category : ∃ value, d.field? r "category" s = pure value ∧ ∀ c, value = some (.entry (.categoryName c)) →
    ∃ found, c.resolve? r s = pure (some found) ∧ found.path = c.path ∧
      (found.node.documents.filter fun e => e.id = d.id) = [d]

section Answers

variable {tools : Toolbox} {canceled : Bool} {depth firstId tree : ℕ} {own : Fields} {documents : List Document}
  {dates : Document → Option Timestamp} {names : Document → List String} {d : Document} {s : Scope}

/-- The tag that a name stands for is the one of this name in the index. -/
theorem exists_tag_of_mem (distinct : (documents.map (·.id)).Nodup) {name : String}
    (visible : isBlankText name = false) (mem : d ∈ documents) (carries : name ∈ names d) :
    ∃ t, (tagsOfGroups firstId (groupsOf dates names documents)).find? (fun t => t.name = name) = some t ∧
      t.name = name ∧ (t.documents.filter fun e => e.id = d.id) = [d] ∧
      ∀ e ∈ t.documents, e ∈ documents ∧ name ∈ names e := by
  have inverts := inverts_tagsOfGroups distinct dates names firstId
  obtain ⟨listed, inside, same⟩ := List.mem_map.1 ((inverts.named_iff name).2 ⟨visible, d, mem, carries⟩)
  have present : ((tagsOfGroups firstId (groupsOf dates names documents)).find? fun t => t.name = name).isSome :=
    List.find?_isSome.2 ⟨listed, inside, by simpa using same⟩
  obtain ⟨t, found⟩ := Option.isSome_iff_exists.1 present
  have known := List.mem_of_find?_eq_some found
  have same : t.name = name := by simpa using List.find?_some found
  refine ⟨t, found, same, filter_id_eq (inverts.once t known) ?_, fun e listed => ?_⟩
  · exact (inverts.listed_iff t known d).2 ⟨mem, same ▸ carries⟩
  · obtain ⟨inside, carries⟩ := (inverts.listed_iff t known e).1 listed
    exact ⟨inside, same ▸ carries⟩

theorem answered (distinct : (documents.map (·.id)).Nodup) (named : ∀ d ∈ documents, d.Named)
    (below : Below aggregateKeys (boundRoot own (tagsOfGroups firstId (groupsOf dates Document.writtenTags documents))
      (sortedTree tree documents fun d => Document.categoryNames d.writtenCategory)) s) (mem : d ∈ documents) :
    d.Answered (reducerOfDepth tools canceled (depth + 2)) s documents where
  tags := by
    refine ⟨_, (named d mem).tags_eq s, fun v listed => ?_⟩
    obtain ⟨name, carries, rfl⟩ := List.mem_map.1 listed
    refine ⟨name, rfl, fun visible => ?_⟩
    obtain ⟨t, found, same, once, others⟩ := exists_tag_of_mem distinct visible mem carries
    refine ⟨t, ?_, same, once, fun e listed => ?_⟩
    · rw [TagName.resolve?_eq below, found]
    · obtain ⟨inside, carries⟩ := others e listed
      exact ⟨inside, _, (named e inside).tags_eq s, List.mem_map_of_mem carries⟩
  category := by
    refine ⟨_, (named d mem).category_eq s, fun c written => ?_⟩
    have path : Document.categoryNames d.writtenCategory = c.path := by rw [written, Document.categoryNames]
    obtain ⟨found, reached, same, direct⟩ :=
      exists_category_at tree (fun d => Document.categoryNames d.writtenCategory) mem
    refine ⟨found, ?_, same.trans path, ?_⟩
    · rw [CategoryName.resolve?_eq below, ← path, reached]
    · -- The documents of the category are some of all documents, and this is one of them.
      rw [direct]
      refine filter_id_eq (distinct.sublist (List.filter_sublist.map _)) ?_
      simpa using mem

end Answers

/-- The tags and categories of documents whose headers only name them can be bound if the dates can
be told.  In every scope that sees them, the names in the headers then lead back to the documents. -/
theorem bindAggregates_answers (tools : Toolbox) (canceled : Bool) (depth : ℕ) (own : Fields)
    (documents : List Document) (distinct : (documents.map (·.id)).Nodup) (named : ∀ d ∈ documents, d.Named) :
    let r := reducerOfDepth tools canceled (depth + 2)
    ((∃ bound, bindAggregates r (.root own) documents = pure bound) ↔
        ∀ d ∈ documents, ∃ date, d.date r (.root own) = pure date) ∧
      ∀ bound s, bindAggregates r (.root own) documents = pure bound → Below aggregateKeys bound s →
        ∀ d ∈ documents, d.Answered r s documents := by
  intro r
  -- Nothing but a date can fail: tags and categories that are only named can always be told.
  have bound_of_dates : ∀ dates : Document → Option Timestamp, (∀ d ∈ documents, d.date r (.root own) = pure (dates d)) →
      ∃ firstId tree, bindAggregates r (.root own) documents =
        pure (boundRoot own (tagsOfGroups firstId (groupsOf dates Document.writtenTags documents))
          (sortedTree tree documents fun d => Document.categoryNames d.writtenCategory)) := by
    intro dates dated
    refine bindAggregates_eq dated (fun d inside => (named d inside).tags_eq _) fun d inside => ?_
    rw [Document.categoryPath, (named d inside).category_eq, pure_bind]
  have dates_of_bound : ∀ bound, bindAggregates r (.root own) documents = pure bound →
      ∀ d ∈ documents, ∃ date, d.date r (.root own) = pure date := by
    intro bound made d inside
    obtain ⟨index, made, -⟩ := Eval.bind_eq_pure_iff.1 made
    exact (told_of_tagIndex made d inside).1
  constructor
  · constructor
    · rintro ⟨bound, made⟩
      exact dates_of_bound bound made
    · intro dated
      choose! dates dated using dated
      obtain ⟨firstId, tree, made⟩ := bound_of_dates dates dated
      exact ⟨_, made⟩
  · intro bound s made below d mem
    have dated := dates_of_bound bound made
    choose! dates dated using dated
    obtain ⟨firstId, tree, same⟩ := bound_of_dates dates dated
    rw [made, Eval.pure_inj] at same
    subst same
    exact answered distinct named below mem

/-- A number and a quoted text among the tags, and a category inside that of another document; the
names are looked up from a scope inside the root. -/
theorem bindAggregates_answers_nested :
    let r := reducerOfDepth Builtin.toolbox false 2
    let inner : Document := ⟨0, .parse "inner.md", [
      ("category", .value (.entry (.categoryName ⟨["a"], "b"⟩))),
      ("tags", .array [.value (namedTag "two words"), .value (namedTag "7")])]⟩
    let outer : Document := ⟨1, .parse "outer.md", [("category", .value (.entry (.categoryName ⟨[], "a"⟩)))]⟩
    ∃ bound, bindAggregates r (.root []) [inner, outer] = pure bound ∧
      ∀ d ∈ [inner, outer], d.Answered r (.child [("item", .value (.int 1))] bound) [inner, outer] := by
  intro r inner outer
  have tags : NamesTags (.array [.value (namedTag "two words"), .value (namedTag "7")]) := by
    have terms : parseItems "['two words', 7]" = .ok [.value (.str "two words"), .value (.int 7)] := by with_unfolding_all rfl
    exact namesTags_of_items (by decide +kernel) terms (by simp [literalName?])
  have category : NamesCategory (.value (.entry (.categoryName ⟨["a"], "b"⟩))) := by
    have terms : parseItems "['a', 'b']" = .ok [.value (.str "a"), .value (.str "b")] := by with_unfolding_all rfl
    exact namesCategory_of_items (by decide +kernel) terms rfl
  have single : NamesCategory (.value (.entry (.categoryName ⟨[], "a"⟩))) := by
    have terms : parseItems "'a'" = .ok [.value (.str "a")] := by with_unfolding_all rfl
    exact namesCategory_of_items (by decide +kernel) terms rfl
  have named : ∀ d ∈ [inner, outer], d.Named := by
    simp only [List.forall_mem_cons]
    refine ⟨⟨?_, ?_⟩, ⟨?_, ?_⟩, List.forall_mem_nil _⟩
    · rintro e ⟨⟩
      exact tags
    · rintro e ⟨⟩
      exact category
    · rintro e ⟨⟩
    · rintro e ⟨⟩
      exact single
  obtain ⟨bound_iff, answers⟩ := bindAggregates_answers Builtin.toolbox false 0 [] [inner, outer] (by decide) named
  obtain ⟨bound, made⟩ := bound_iff.2 (by
    simp only [List.forall_mem_cons]
    exact ⟨⟨none, rfl⟩, ⟨none, rfl⟩, List.forall_mem_nil _⟩)
  have free : ∀ key ∈ aggregateKeys, Keyed.get? key [("item", Expr.value (.int 1))] = none := by
    simp [aggregateKeys, tagListKey, rootCategoryKey, Keyed.get?]
  exact ⟨bound, made, answers bound _ made (.child free .self)⟩

end Folio
