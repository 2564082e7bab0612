import Folio.Builtin.Basic
import Folio.Eval.Machine
import Folio.Proofs.Eval.Outcome

/-!
# Links and neighbours of loop items

A loop binds each element in an item of its own, and a loop over items puts items into items.  What
an item is linked to is what the element inside it is linked to, however deep that lies; but a text
that leads out of the site is known as such only outside of items, and a neighbour is found for a
document in a single item only.

Main statement: `links_and_neighbours_in_loops`.
-/

namespace Folio

/-- The second value is the first inside this number of loop items, one in the other. -/
inductive InLoops : ℕ → Value → Value → Prop where
  | itself (v : Value) : InLoops 0 v v
  | item {depth : ℕ} {v : Value} (i : LoopItem) (inside : InLoops depth v i.value) :
      InLoops (depth + 1) v (.entry (.loopItem i))

/-- The values that name a place of the site: a text, a path, a document. -/
inductive Value.NamesPlace : Value → Prop where
  | text (text : String) : NamesPlace (.str text)
  | path (p : SitePath) : NamesPlace (.entry (.path p))
  | document (d : Document) : NamesPlace (.entry (.document d))

def Value.LeadsOut (v : Value) : Prop :=
  ∃ text, v = .str text ∧ "://".toList <:+: text.toList

variable {depth : ℕ} {v v' : Value} {d : Document} {target : SitePath} {r : Reducer} {s : Scope} {e : Expr}
  {args : List Expr}

theorem InLoops.unwrapped (inside : InLoops depth v v') : v'.unwrapped = v.unwrapped := by
  induction inside with
  | itself => rfl
  | item i inside ih =>
    obtain ⟨id, index, count, value⟩ := i
    exact ih

theorem InLoops.not_leadsOut (inside : InLoops (depth + 1) v v') : ¬v'.LeadsOut := by
  rintro ⟨text, rfl, -⟩
  cases inside

namespace Builtin

/-! ## Links -/

theorem isUrl_iff (text : List Char) : isUrl text = true ↔ "://".toList <:+: text := by
  fun_induction isUrl text with
  | case1 rest => exact iff_of_true rfl ⟨[], rest, rfl⟩
  | case2 c cs other ih =>
    have noStart : ¬"://".toList <+: c :: cs := by
      rintro ⟨rest, same⟩
      exact other rest (List.cons.inj same).1.symm (List.cons.inj same).2.symm
    rw [ih, List.infix_cons_iff, or_iff_right noStart]
  | case3 => decide

theorem targetPath?_inLoops (inside : InLoops depth v v') : targetPath? v' = targetPath? v := by
  rw [targetPath?, targetPath?, inside.unwrapped]

/-- The link from the current document to a place of the site. -/
def linkTo (r : Reducer) (s : Scope) (target : SitePath) : Eval Expr := do
  let source ← linkSource r s
  pure (.value (.str (SitePath.relative source target)))

theorem relative_of_leadsOut (given : r.reduce e s = pure v) (out : v.LeadsOut) :
    relative r (e :: args) s = pure (.value v) := by
  obtain ⟨text, rfl, url⟩ := out
  simp [relative, given, (isUrl_iff _).2 url]

theorem relative_of_stays (given : r.reduce e s = pure v) (stays : ¬v.LeadsOut)
    (found : targetPath? v = some target) : relative r (e :: args) s = linkTo r s target := by
  cases v with
  | str text =>
    have inner : isUrl text.toList = false :=
      Bool.eq_false_iff.2 fun url => stays ⟨text, rfl, (isUrl_iff _).1 url⟩
    simp [relative, given, inner, found, linkTo]
  | null | bool | int | float | date | list | entry | callable => simp [relative, given, found, linkTo]

theorem exists_targetPath? (place : v.NamesPlace) : ∃ target, targetPath? v = some target := by
  cases place with
  | text text => exact ⟨_, rfl⟩
  | path p => exact ⟨_, rfl⟩
  | document d => exact ⟨_, rfl⟩

/-! ## Neighbours -/

theorem documentOf?_of_other (place : v.NamesPlace) (other : ∀ d, v ≠ .entry (.document d)) : documentOf? v = none := by
  cases place with
  | text => rfl
  | path => rfl
  | document d => exact absurd rfl (other d)

/-- An item is the document in it, and is no document if there is another item in between. -/
theorem documentOf?_inLoops (place : v.NamesPlace) (inside : InLoops (depth + 1) v v') :
    documentOf? v' = if depth = 0 then documentOf? v else none := by
  cases inside with
  | item i inside =>
    obtain ⟨id, index, count, value⟩ := i
    cases inside with
    | itself => cases place <;> rfl
    | item j inside => rfl

theorem currentDocument?_of_given (given : r.reduce e s = pure v) :
    currentDocument? r (e :: args) s = pure (documentOf? v) := by
  rw [currentDocument?, given, pure_bind]

end Builtin

open Builtin

/-- The built-in functions are asked about a value, and about the same value as a loop item.  Unless
it is a text that leads out of the site, both are linked alike; such a text is its own link, but as
an item it is taken for a path.  An item has the neighbours of the document in it, but an item in
an item has none; what is no document has none in any case. -/
theorem links_and_neighbours_in_loops {n : ℕ} (place : v.NamesPlace) (inside : InLoops (n + 1) v v') {e e' : Expr}
    (given : r.reduce e s = pure v) (given' : r.reduce e' s = pure v') (args : List Expr) :
    (¬v.LeadsOut → relative r (e' :: args) s = relative r (e :: args) s) ∧
      (∀ text, v = .str text → "://".toList <:+: text.toList →
        relative r (e :: args) s = pure (.value v) ∧ relative r (e' :: args) s = linkTo r s (SitePath.parse text)) ∧
      ∀ direction,
        (n = 0 ∨ (∀ d, v ≠ .entry (.document d)) →
          neighbour direction r (e' :: args) s = neighbour direction r (e :: args) s) ∧
        (n ≠ 0 → neighbour direction r (e' :: args) s = pure (.value .null)) := by
  obtain ⟨target, found⟩ := exists_targetPath? place
  have linked : relative r (e' :: args) s = linkTo r s target :=
    relative_of_stays given' inside.not_leadsOut (by rw [targetPath?_inLoops inside, found])
  refine ⟨fun stays => ?_, fun text same out => ?_, fun direction => ⟨fun seen => ?_, fun deep => ?_⟩⟩
  · rw [linked, relative_of_stays given stays found]
  · refine ⟨relative_of_leadsOut given ⟨text, same, out⟩, ?_⟩
    subst same
    obtain rfl := Option.some_inj.1 found
    exact linked
  · have same : documentOf? v' = documentOf? v := by
      rw [documentOf?_inLoops place inside]
      obtain rfl | other := seen
      · rfl
      · simp [documentOf?_of_other place other]
    rw [neighbour, neighbour, currentDocument?_of_given given', currentDocument?_of_given given, same]
  · rw [neighbour, currentDocument?_of_given given', documentOf?_inLoops place inside, if_neg deep]
    rfl

/-- On the page `news/index.html`, an item of an item that holds a document is linked to like the
document, but has no neighbour; an item that holds it has its neighbours. -/
theorem links_and_neighbours_in_loops_document :
    let d : Document := ⟨0, .parse "blog/a.md", []⟩
    let item : Value := .entry (.loopItem ⟨none, 0, 1, .entry (.document d)⟩)
    let nested : Value := .entry (.loopItem ⟨none, 2, 3, item⟩)
    let s := Scope.root [("path", .value (.str "news/index.html"))]
    let r := reducerOfDepth Builtin.toolbox false 4
    relative r [.value nested] s = pure (.value (.str "../blog/a.html")) ∧
      neighbour .older r [.value item] s = neighbour .older r [.value (.entry (.document d))] s ∧
      neighbour .older r [.value nested] s = pure (.value .null) := by
  intro d item nested s r
  have inside : InLoops 1 (.entry (.document d)) item := .item _ (.itself _)
  have read (v : Value) : r.reduce (.value v) s = pure v := rfl
  obtain ⟨-, -, once⟩ := links_and_neighbours_in_loops (.document d) inside (read _) (read item) []
  obtain ⟨linked, -, twice⟩ :=
    links_and_neighbours_in_loops (.document d) (.item ⟨none, 2, 3, item⟩ inside) (read _) (read nested) []
  refine ⟨?_, (once .older).1 (.inl rfl), (twice .older).2 (by decide)⟩
  rw [linked (by rintro ⟨_, ⟨⟩, _⟩)]
  cbv

/-- The text of a link to another site is its own link, but an item with that text is a path on this
one; a document has an older neighbour, but as an item of an item it has none. -/
theorem loop_items_lose_links :
    let url : Value := .str "https://example.com/x"
    let a : Document := ⟨0, .parse "a.md", [("date", .value (.date ⟨0, 0, 0⟩))]⟩
    let b : Document := ⟨1, .parse "b.md", [("date", .value (.date ⟨1, 0, 0⟩))]⟩
    let item (v : Value) : Value := .entry (.loopItem ⟨none, 0, 1, v⟩)
    let s := Scope.root [("rootCategory", .value (.entry (.category ⟨0, ⟨"(root)", [a, b], []⟩, []⟩)))]
    let r := reducerOfDepth Builtin.toolbox false 4
    relative r [.value url] s = pure (.value url) ∧
      relative r [.value (item url)] s = pure (.value (.str "https:/example.com/x")) ∧
      neighbour .older r [.value (.entry (.document b))] s = pure (.value (.entry (.document a))) ∧
      neighbour .older r [.value (item (item (.entry (.document b))))] s = pure (.value .null) := by
  intro url a b item s r
  have dated : dateDocuments r s (nodeDocuments ⟨"(root)", [a, b], []⟩) =
      pure [⟨some ⟨0, 0, 0⟩, a⟩, ⟨some ⟨1, 0, 0⟩, b⟩] := rfl
  have inOrder : [(⟨some ⟨0, 0, 0⟩, a⟩ : Dated), ⟨some ⟨1, 0, 0⟩, b⟩].Pairwise fun a b => compareDated a b != .gt :=
    List.pairwise_pair.2 rfl
  have line : timeline r s = pure [a, b] := by
    have root : r.reduceBound? rootCategoryKey s =
        pure (some (.entry (.category ⟨0, ⟨"(root)", [a, b], []⟩, []⟩))) := by cbv
    simp only [timeline, root, dated, pure_bind, List.mergeSort_of_pairwise inOrder, List.map_cons, List.map_nil]
  have before : neighbour? .older b.source [a, b] = some a := by
    have apart : (a.source == b.source) = false := by decide
    simp only [neighbour?, List.findIdx?_cons, apart, beq_self_eq_true]
    rfl
  refine ⟨by cbv, by cbv, ?_, by cbv⟩
  have current : currentDocument? r [.value (.entry (.document b))] s = pure (some b) := rfl
  simp only [neighbour, current, line, before, pure_bind]

end Folio
