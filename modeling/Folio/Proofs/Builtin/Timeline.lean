import Folio.Build.Survey
import Folio.Proofs.Category.Partition
import Folio.Proofs.Entry.Resolution
import Folio.Proofs.Scope.Below
import Folio.Proofs.Tag.Index

/-!
# The line of all documents by date

`older` and `newer` make the order of dates anew at each call: they collect the documents from
the tree of categories, sort them, and look for the place of the document in question.  Dates,
and paths where dates agree, order documents with paths of their own strictly.  So there is one
way only to sort them, whatever tree they are collected from, and every call sees the same order.

Main statement: `neighbours_follow_line`.
-/

namespace Folio

open Builtin (Direction compareDated currentDocument? dateDocuments neighbour neighbour? nodeDocuments timeline)
open Calendar (Timestamp readTimestamp?)
open Scope (Below)

/-! ## The order -/

theorem SitePath.compare_eq (p q : SitePath) : p.compare q = Ord.compare p.segments q.segments := by
  rw [SitePath.compare]
  generalize p.segments = as
  generalize q.segments = bs
  induction as generalizing bs with
  | nil => cases bs <;> rfl
  | cons a as ih =>
    cases bs with
    | nil => rfl
    | cons b bs => rw [compare.go, ih, List.compare_cons_cons]

theorem SitePath.compare_ne_gt_total (p q : SitePath) : p.compare q ≠ .gt ∨ q.compare p ≠ .gt := by
  rw [SitePath.compare_eq, SitePath.compare_eq, Std.OrientedOrd.eq_swap (a := q.segments)]
  cases Ord.compare p.segments q.segments <;> simp

theorem SitePath.compare_ne_gt_trans {p q o : SitePath} (first : p.compare q ≠ .gt) (second : q.compare o ≠ .gt) :
    p.compare o ≠ .gt := by
  simp only [SitePath.compare_eq, ← Ordering.isLE_iff_ne_gt] at *
  exact Std.TransOrd.isLE_trans first second

theorem SitePath.eq_of_compare {p q : SitePath} (same : p.compare q = .eq) : p = q := by
  rw [SitePath.compare_eq] at same
  obtain ⟨ps⟩ := p
  obtain ⟨qs⟩ := q
  exact congrArg SitePath.mk (Std.LawfulEqOrd.eq_of_compare same)

theorem compareDates_eq_iff {a b : Option Timestamp} : compareDates a b = .eq ↔ SameDate a b := by
  cases a <;> cases b <;> simp [compareDates, SameDate, Timestamp.compare, Ordering.then_eq_eq]

theorem sameDate_iff {a b : Option Timestamp} : SameDate a b ↔ NotAfter a b ∧ NotAfter b a := by
  match a, b with
  | some a, some b =>
    simp only [SameDate, NotAfter, Timestamp.NotAfter]
    omega
  | none, some b => simp [SameDate, NotAfter]
  | some a, none => simp [SameDate, NotAfter]
  | none, none => simp [SameDate, NotAfter]

theorem compareDated_ne_gt_iff {a b : Dated} :
    compareDated a b ≠ .gt ↔ NotAfter a.date b.date ∧
      (SameDate a.date b.date → SitePath.compare a.document.source b.document.source ≠ .gt) := by
  rw [compareDated, ← compareDates_ne_gt_iff, ← compareDates_eq_iff]
  cases compareDates a.date b.date <;> simp

theorem compareDated_trans (a b c : Dated) (first : compareDated a b != .gt) (second : compareDated b c != .gt) :
    compareDated a c != .gt := by
  simp only [bne_iff_ne, compareDated_ne_gt_iff] at *
  refine ⟨first.1.trans second.1, fun same => ?_⟩
  -- Where the outer dates agree, the one in the middle agrees with both.
  have back := (sameDate_iff.1 same).2
  have left : SameDate a.date b.date := sameDate_iff.2 ⟨first.1, second.1.trans back⟩
  have right : SameDate b.date c.date := sameDate_iff.2 ⟨second.1, back.trans first.1⟩
  exact SitePath.compare_ne_gt_trans (first.2 left) (second.2 right)

theorem compareDated_total (a b : Dated) : (compareDated a b != .gt || compareDated b a != .gt) = true := by
  simp only [Bool.or_eq_true, bne_iff_ne, compareDated_ne_gt_iff]
  by_cases forth : NotAfter a.date b.date
  · by_cases back : NotAfter b.date a.date
    · obtain less | less := SitePath.compare_ne_gt_total a.document.source b.document.source
      · exact .inl ⟨forth, fun _ => less⟩
      · exact .inr ⟨back, fun _ => less⟩
    · exact .inl ⟨forth, fun same => absurd (sameDate_iff.1 same).2 back⟩
  · have back := (notAfter_total a.date b.date).resolve_left forth
    exact .inr ⟨back, fun same => absurd (sameDate_iff.1 same).2 forth⟩

/-- The first document stands before the second: by date, and by path where the dates agree. -/
def Precedes (dates : Document → Option Timestamp) (a b : Document) : Prop :=
  NotAfter (dates a) (dates b) ∧ (SameDate (dates a) (dates b) → a.source.compare b.source = .lt)

theorem Precedes.asymm {dates : Document → Option Timestamp} {a b : Document} (forth : Precedes dates a b)
    (back : Precedes dates b a) : False := by
  have same : SameDate (dates a) (dates b) := sameDate_iff.2 ⟨forth.1, back.1⟩
  have less := forth.2 same
  have more := back.2 (sameDate_iff.2 ⟨back.1, forth.1⟩)
  rw [SitePath.compare_eq] at less more
  rw [Std.OrientedOrd.eq_swap, less] at more
  exact nomatch more

/-! ## The line -/

section Line

variable {dates : Document → Option Timestamp} {documents : List Document}

def lineOf (dates : Document → Option Timestamp) (documents : List Document) : List Document :=
  ((documents.map fun d => (⟨dates d, d⟩ : Dated)).mergeSort fun a b => compareDated a b != .gt).map (·.document)

theorem lineOf_perm (dates : Document → Option Timestamp) (documents : List Document) :
    (lineOf dates documents).Perm documents := by
  have sorted := (List.mergeSort_perm (documents.map fun d => (⟨dates d, d⟩ : Dated))
    fun a b => compareDated a b != .gt).map (·.document)
  simpa [lineOf, Function.comp_def] using sorted

theorem lineOf_pairwise (distinct : (documents.map (·.source)).Nodup) :
    (lineOf dates documents).Pairwise (Precedes dates) := by
  have sorted := List.pairwise_mergeSort compareDated_trans compareDated_total
    (documents.map fun d => (⟨dates d, d⟩ : Dated))
  have apart : ((lineOf dates documents).map (·.source)).Nodup :=
    ((lineOf_perm dates documents).map _).nodup_iff.2 distinct
  rw [List.Nodup, List.pairwise_map, lineOf, List.pairwise_map] at apart
  refine List.pairwise_map.2 ((sorted.and apart).imp_of_mem fun {a b} left right both => ?_)
  rw [List.mem_mergeSort, List.mem_map] at left right
  obtain ⟨a, -, rfl⟩ := left
  obtain ⟨b, -, rfl⟩ := right
  obtain ⟨inOrder, differ⟩ := both
  rw [bne_iff_ne, compareDated_ne_gt_iff] at inOrder
  refine ⟨inOrder.1, fun same => ?_⟩
  cases decided : a.source.compare b.source with
  | lt => rfl
  | eq => exact absurd (SitePath.eq_of_compare decided) differ
  | gt => exact absurd decided (inOrder.2 same)

/-- There is one way only to put documents in this order. -/
theorem lineOf_eq_of_perm {others : List Document} (distinct : (documents.map (·.source)).Nodup)
    (same : others.Perm documents) : lineOf dates others = lineOf dates documents := by
  have apart : (others.map (·.source)).Nodup := (same.map _).nodup_iff.2 distinct
  have perm := ((lineOf_perm dates others).trans same).trans (lineOf_perm dates documents).symm
  exact perm.eq_of_pairwise (fun _ _ _ _ forth back => (forth.asymm back).elim) (lineOf_pairwise apart)
    (lineOf_pairwise distinct)

end Line

/-! ## Neighbours in a line -/

section Neighbours

variable {order : List Document} {d e : Document} {i : ℕ}

/-- The answers of a document at some place are the documents at the places next to it. -/
theorem neighbour?_at (distinct : (order.map (·.source)).Nodup) (bound : i < order.length) :
    neighbour? .newer order[i].source order = order[i + 1]? ∧
      neighbour? .older order[i].source order = if i = 0 then none else order[i - 1]? := by
  have found : order.findIdx? (fun d => d.source == order[i].source) = some i := by
    rw [List.findIdx?_eq_some_iff_getElem]
    have apart := List.pairwise_iff_getElem.1 (List.pairwise_map.1 distinct)
    exact ⟨bound, by simp, fun j before same => apart j i (by omega) bound before (by simpa using same)⟩
  constructor <;> simp only [neighbour?, found]

theorem neighbour?_absent (absent : d.source ∉ order.map (·.source)) (direction : Direction) :
    neighbour? direction d.source order = none := by
  have nowhere : order.findIdx? (fun e => e.source == d.source) = none := by
    rw [List.findIdx?_eq_none_iff]
    intro e mem
    rw [beq_eq_false_iff_ne]
    exact fun same => absent (List.mem_map.2 ⟨e, mem, same⟩)
  rw [neighbour?, nowhere]

theorem neighbour?_mem {direction : Direction} (found : neighbour? direction d.source order = some e) : e ∈ order := by
  rw [neighbour?] at found
  split at found
  · cases found
  · cases direction with
    | older =>
      dsimp only at found
      split_ifs at found
      exact List.mem_of_getElem? found
    | newer => exact List.mem_of_getElem? found

theorem neighbour?_inverse (distinct : (order.map (·.source)).Nodup) (d_mem : d ∈ order) (e_mem : e ∈ order) :
    neighbour? .newer d.source order = some e ↔ neighbour? .older e.source order = some d := by
  obtain ⟨i, bound, rfl⟩ := List.mem_iff_getElem.1 d_mem
  obtain ⟨j, bound', rfl⟩ := List.mem_iff_getElem.1 e_mem
  have nodup : order.Nodup := .of_map _ distinct
  rw [(neighbour?_at distinct bound).1, (neighbour?_at distinct bound').2, List.getElem?_eq_some_iff]
  constructor
  · rintro ⟨inside, same⟩
    obtain rfl := nodup.getElem_inj_iff.1 same
    simp
  · intro found
    split_ifs at found with first
    obtain ⟨inside, same⟩ := List.getElem?_eq_some_iff.1 found
    have places := nodup.getElem_inj_iff.1 same
    obtain rfl : j = i + 1 := by omega
    exact ⟨bound', rfl⟩

/-- From this document on, these are the documents met on the way that `next` shows. -/
inductive Visits (next : Document → Option Document) : Document → List Document → Prop where
  | last {d : Document} (ends : next d = none) : Visits next d [d]
  | step {d e : Document} {rest : List Document} (leads : next d = some e) (visits : Visits next e rest) :
    Visits next d (d :: rest)

/-- Whoever starts at some place of the line meets all documents from there on. -/
theorem visits_drop (distinct : (order.map (·.source)).Nodup) (bound : i < order.length) :
    Visits (fun d => neighbour? .newer d.source order) order[i] (order.drop i) := by
  obtain ⟨left, total⟩ : ∃ left, order.length = i + 1 + left := ⟨order.length - (i + 1), by omega⟩
  induction left generalizing i with
  | zero =>
    rw [List.drop_eq_getElem_cons bound, List.drop_of_length_le (by omega)]
    refine .last ?_
    rw [(neighbour?_at distinct bound).1, List.getElem?_eq_none (by omega)]
  | succ left ih =>
    have more : i + 1 < order.length := by omega
    rw [List.drop_eq_getElem_cons bound]
    refine .step (e := order[i + 1]) ?_ (ih more (by omega))
    rw [(neighbour?_at distinct bound).1, List.getElem?_eq_getElem more]

end Neighbours

/-! ## What the line is made from -/

section Made

variable {r : Reducer} {s : Scope} {documents : List Document} {own : Fields} {bound : Scope}

/-- A header that has a date gives it as a literal, not as something to work out. -/
def Document.DatedByLiteral (d : Document) : Prop :=
  ∀ e, Keyed.get? "date" d.header = some e → ∃ v, e = .value v

def Document.literalDate? (d : Document) : Option Timestamp :=
  match Keyed.get? "date" d.header with
  | some (.value (.date t)) => some t
  | some (.value (.str text)) => readTimestamp? text.toList
  | _ => none

/-- A literal date is the same wherever it is read. -/
theorem Document.DatedByLiteral.date_eq {d : Document} (literal : d.DatedByLiteral) (tools : Toolbox) (canceled : Bool)
    (depth : ℕ) (s : Scope) : d.date (reducerOfDepth tools canceled (depth + 1)) s = pure d.literalDate? := by
  rw [Document.date, Document.field?, Document.literalDate?]
  cases found : Keyed.get? "date" d.header with
  | none => rfl
  | some e =>
    obtain ⟨v, rfl⟩ := literal e found
    cases v <;> rfl

theorem dateDocuments_eq {dates : Document → Option Timestamp} (dated : ∀ d ∈ documents, d.date r s = pure (dates d)) :
    dateDocuments r s documents = pure (documents.map fun d => ⟨dates d, d⟩) := by
  induction documents with
  | nil => rfl
  | cons d documents ih =>
    obtain ⟨first, later⟩ := List.forall_mem_cons.1 dated
    rw [dateDocuments, first, pure_bind, ih later, pure_bind, List.map_cons]

theorem told_of_placeDocuments {placed : List Placed} (made : placeDocuments r s documents = pure placed) :
    ∀ d ∈ documents, ∃ path, d.categoryPath r s = pure path := by
  induction documents generalizing placed with
  | nil => exact fun _ mem => nomatch mem
  | cons d documents ih =>
    simp only [placeDocuments, Eval.bind_eq_pure_iff] at made
    obtain ⟨path, told, rest, made, -⟩ := made
    exact List.forall_mem_cons.2 ⟨⟨path, told⟩, ih made⟩

/-- All that is asked of a document when the documents of a site are aggregated can be told. -/
structure Document.Told (d : Document) (r : Reducer) (s : Scope) : Prop where
  date : ∃ date, d.date r s = pure date
  tags : ∃ values names, d.tags r s = pure values ∧ tagNamesOf r s values = pure names
  category : ∃ path, d.categoryPath r s = pure path

theorem told_of_bindAggregates (made : bindAggregates r s documents = pure bound) : ∀ d ∈ documents, d.Told r s := by
  simp only [bindAggregates, categoryTree, Eval.bind_eq_pure_iff] at made
  obtain ⟨index, indexed, root, ⟨placed, made, -⟩, -⟩ := made
  intro d mem
  obtain ⟨date, tags⟩ := told_of_tagIndex indexed d mem
  exact ⟨date, tags, told_of_placeDocuments made d mem⟩

/-- Whatever the order of the documents, the tree that is bound holds each of them once. -/
theorem bindAggregates_of_told (told : ∀ d ∈ documents, d.Told r (.root own)) :
    ∃ tags root, bindAggregates r (.root own) documents = pure (boundRoot own tags root) ∧
      (nodeDocuments root.node).Perm documents := by
  choose! dates dated using fun d mem => (told d mem).date
  choose! values names tagged named using fun d mem => (told d mem).tags
  choose! paths placed using fun d mem => (told d mem).category
  let firstId := documents.foldl (fun next d => max next (d.id + 1)) 0
  let tags := tagsOfGroups firstId (groupsOf dates names documents)
  have made := categoryTree_eq placed (firstId + tags.length)
  refine ⟨tags, sortedTree (firstId + tags.length) documents paths, ?_, nodeDocuments_sortedTree _ documents paths⟩
  rw [bindAggregates, tagIndex_eq dated tagged named, pure_bind, made, pure_bind]
  rfl

end Made

/-! ## What calls come to -/

section Calls

variable {depth : ℕ} {own : Fields} {tags : List Tag} {root : Category} {documents : List Document} {s : Scope}
  {direction : Direction} {d : Document} {answer : Option Document}

def Builtin.Direction.name : Direction → String
  | .older => "older"
  | .newer => "newer"

/-- A document as the answer to a call, or null. -/
def answerValue : Option Document → Value
  | some d => .entry (.document d)
  | none => .null

/-- Calls of the built-in function that are about the document come to this answer, whatever the
function is called and however the document is given. -/
def Says (direction : Direction) (d : Document) (depth : ℕ) (s : Scope) (answer : Option Document) : Prop :=
  ∀ function args registration,
    (reducerOfDepth Builtin.toolbox false depth).reduce function s =
      pure (.callable ⟨.deferred, direction.name, registration⟩) →
    currentDocument? (reducerOfDepth Builtin.toolbox false depth) args s = pure (some d) →
    (reducerOfDepth Builtin.toolbox false (depth + 1)).reduce (.apply function args) s = pure (answerValue answer)

theorem timeline_eq (literal : ∀ d ∈ documents, d.DatedByLiteral) (distinct : (documents.map (·.source)).Nodup)
    (collected : (nodeDocuments root.node).Perm documents)
    (below : Below [rootCategoryKey] (boundRoot own tags root) s) :
    timeline (reducerOfDepth Builtin.toolbox false (depth + 2)) s =
      pure (lineOf Document.literalDate? documents) := by
  have bound : s.bindingsOf rootCategoryKey = [.value (.entry (.category root))] := by
    rw [below.bindingsOf (by simp), bindingsOf_rootCategory]
  have dated : ∀ d ∈ nodeDocuments root.node,
      d.date (reducerOfDepth Builtin.toolbox false (depth + 2)) s = pure d.literalDate? := fun d mem =>
    (literal d (collected.mem_iff.1 mem)).date_eq Builtin.toolbox false (depth + 1) s
  rw [timeline, reduceBound?_value (by decide) bound, pure_bind]
  dsimp only
  rw [dateDocuments_eq dated, pure_bind, ← lineOf, lineOf_eq_of_perm distinct collected]

theorem says_of_timeline {order : List Document}
    (told : timeline (reducerOfDepth Builtin.toolbox false (depth + 1)) s = pure order) :
    Says direction d (depth + 1) s (neighbour? direction d.source order) := by
  intro function args registration calls about
  have found : neighbour direction (reducerOfDepth Builtin.toolbox false (depth + 1)) args s =
      pure (.value (answerValue (neighbour? direction d.source order))) := by
    simp only [neighbour, about, told, pure_bind]
    cases neighbour? direction d.source order <;> rfl
  have run : Builtin.runDeferred direction.name (reducerOfDepth Builtin.toolbox false (depth + 1)) args s =
      neighbour direction (reducerOfDepth Builtin.toolbox false (depth + 1)) args s := by
    cases direction <;> rfl
  change (reducerOfDepth Builtin.toolbox false (depth + 1)).apply Builtin.toolbox function args s = _
  rw [Evaluator.apply, calls, pure_bind]
  change (Builtin.runDeferred direction.name (reducerOfDepth Builtin.toolbox false (depth + 1)) args s >>= fun e =>
    (reducerOfDepth Builtin.toolbox false (depth + 1)).reduce e s) = _
  rw [run, found, pure_bind]
  rfl

end Calls

/-- The answers of `older` and `newer` go along a line on which all documents stand. -/
structure FollowsLine (answer : Direction → Document → Option Document) (documents order : List Document) : Prop where
  perm : order.Perm documents
  once : order.Nodup
  ordered : order.Pairwise (Precedes Document.literalDate?)
  inverse : ∀ d ∈ documents, ∀ e ∈ documents, answer .newer d = some e ↔ answer .older e = some d
  inside : ∀ direction d e, answer direction d = some e → e ∈ documents
  begins : documents ≠ [] → ∃ first ∈ documents, answer .older first = none
  /-- Going on to newer ones from a document that has no older one, all documents are met. -/
  visits : ∀ first ∈ documents, answer .older first = none → Visits (answer .newer) first order
  outside : ∀ d, d.source ∉ documents.map (·.source) → ∀ direction, answer direction d = none

theorem followsLine_lineOf {documents : List Document} (distinct : (documents.map (·.source)).Nodup) :
    FollowsLine (fun direction d => neighbour? direction d.source (lineOf Document.literalDate? documents)) documents
      (lineOf Document.literalDate? documents) := by
  have perm := lineOf_perm Document.literalDate? documents
  have apart : ((lineOf Document.literalDate? documents).map (·.source)).Nodup := (perm.map _).nodup_iff.2 distinct
  refine ⟨perm, .of_map _ apart, lineOf_pairwise distinct, fun d left e right => ?_, fun direction d e found => ?_,
    fun filled => ?_, fun first mem alone => ?_, fun d absent direction => ?_⟩
  · exact neighbour?_inverse apart (perm.mem_iff.2 left) (perm.mem_iff.2 right)
  · exact perm.mem_iff.1 (neighbour?_mem found)
  · have bound : 0 < (lineOf Document.literalDate? documents).length := by
      rw [perm.length_eq]
      exact List.length_pos_of_ne_nil filled
    exact ⟨_, perm.mem_iff.1 (List.getElem_mem bound), by rw [(neighbour?_at apart bound).2, if_pos rfl]⟩
  · obtain ⟨i, bound, rfl⟩ := List.mem_iff_getElem.1 (perm.mem_iff.2 mem)
    have start : i = 0 := by
      rw [(neighbour?_at apart bound).2] at alone
      split_ifs at alone with start
      · exact start
      · rw [List.getElem?_eq_none_iff] at alone
        omega
    subst start
    exact visits_drop apart bound
  · exact neighbour?_absent (fun mem => absent ((perm.map _).mem_iff.1 mem)) direction

/-- Documents with paths of their own and literal dates stand on one line, along which `older` and
`newer` go.  It does not depend on the order in which the documents were aggregated, nor on the scope
in which is asked, as long as the categories are bound there as in the root. -/
theorem neighbours_follow_line (r : Reducer) (own : Fields) (documents : List Document)
    (distinct : (documents.map (·.source)).Nodup) (literal : ∀ d ∈ documents, d.DatedByLiteral) (bound : Scope)
    (made : bindAggregates r (.root own) documents = pure bound) :
    ∃ order answer, FollowsLine answer documents order ∧
      ∀ others : List Document, others.Perm documents → ∃ bound, bindAggregates r (.root own) others = pure bound ∧
        ∀ depth s, Below [rootCategoryKey] bound s → ∀ direction d, Says direction d (depth + 2) s (answer direction d) := by
  have told := told_of_bindAggregates made
  refine ⟨_, _, followsLine_lineOf distinct, fun others same => ?_⟩
  obtain ⟨tags, root, again, collected⟩ := bindAggregates_of_told fun d mem => told d (same.mem_iff.1 mem)
  refine ⟨_, again, fun depth s below direction d => ?_⟩
  exact says_of_timeline (timeline_eq literal distinct (collected.trans same) below)

/-- A document with a date, one with a text that writes a date, and one without either; `old.md` is
asked about from inside a loop. -/
theorem neighbours_follow_line_undated :
    let old : Document := ⟨0, .parse "old.md", [("date", .value (.date ⟨0, 0, 0⟩))]⟩
    let recent : Document := ⟨1, .parse "recent.md", [("date", .value (.str "2024-05-06"))]⟩
    let undated : Document := ⟨2, .parse "undated.md", []⟩
    ∃ order answer bound, FollowsLine answer [undated, recent, old] order ∧
      bindAggregates (reducerOfDepth Builtin.toolbox false 2) (.root []) [old, undated, recent] = pure bound ∧
      (reducerOfDepth Builtin.toolbox false 4).reduce
          (.apply (.value (.callable ⟨.deferred, "newer", 0⟩)) [.value (.entry (.document old))])
          (.child [("item", .value (.int 1))] bound) = pure (answerValue (answer .newer old)) := by
  intro old recent undated
  have literal : ∀ d ∈ [undated, recent, old], d.DatedByLiteral := by
    simp only [List.forall_mem_cons]
    refine ⟨?_, ?_, ?_, fun _ none => nomatch none⟩
    · rintro e ⟨⟩
    · rintro e ⟨⟩
      exact ⟨_, rfl⟩
    · rintro e ⟨⟩
      exact ⟨_, rfl⟩
  have distinct : ([undated, recent, old].map (·.source)).Nodup := by decide
  obtain ⟨order, answer, line, calls⟩ := neighbours_follow_line (reducerOfDepth Builtin.toolbox false 2) []
    [undated, recent, old] distinct literal _ rfl
  have rotated : [old, undated, recent].Perm [undated, recent, old] := @List.perm_append_comm _ [old] [undated, recent]
  obtain ⟨bound, made, told⟩ := calls [old, undated, recent] rotated
  have free : ∀ key ∈ [rootCategoryKey], Keyed.get? key [("item", Expr.value (.int 1))] = none := by
    simp [rootCategoryKey, Keyed.get?]
  exact ⟨order, answer, bound, line, made, told 1 _ (.child free .self) .newer old _ _ 0 rfl rfl⟩

end Folio
