import Folio.Expr.Keyword
import Folio.Proofs.Eval.CarryOver
import Folio.Proofs.Expr.RoundTrip
import Folio.Template.Render

/-!
# Documents and their readers

The fields of a document are evaluated in a scope of its own, inside the scope of whoever reads
them.  A page that reads them binds names of its own, and so do the loops on it.  A field
is the same for every reader as long as its evaluation asks for none of those names: what the
document binds itself hides them, but a word that it takes from the site may mean something
else on the page.

Main statement: `reads_alike`.
-/

namespace Folio.Document

open Scope (Below)

/-! ## The scopes of a page -/

/-- The scopes that come up while the page of a document is rendered inside a site's scope, and
the names that they bind there. -/
inductive PageScope (a : Document) (root : Scope) : List String → Scope → Prop where
  | page : PageScope a root (Keyed.keys a.bindings) (a.scope root)
  | named {names : List String} {s : Scope} (name : String) (e : Expr) (inside : PageScope a root names s) :
      PageScope a root (name :: names) (s.set name e)
  | pass {names : List String} {s : Scope} (name : String) (count index : ℕ) (item : Value)
      (inside : PageScope a root names s) :
      PageScope a root (name :: names) (Template.passScope name count index s item)

variable {a : Document} {root s : Scope} {name : String} {names : List String}

theorem below_of_child {own : Fields} (free : Keyed.get? name own = none) (inside : Below [name] root s) :
    Below [name] root (.child own s) :=
  .child (by simpa using free) inside

/-- A name that none of the scopes binds is left as the site's scope has it.  The innermost scope
is told apart, since it is the one that gets another name. -/
theorem PageScope.exists_child (opened : a.PageScope root names s) (other : name ∉ names) :
    ∃ own parent, s = .child own parent ∧ Keyed.get? name own = none ∧ Below [name] root parent := by
  induction opened with
  | page =>
    have free : Keyed.get? name a.bindings = none := by
      rw [← Option.not_isSome_iff_eq_none, ← Keyed.mem_keys_iff]
      exact other
    exact ⟨a.bindings, root, rfl, free, .self⟩
  | named first e inside ih =>
    obtain ⟨differs, others⟩ := not_or.1 (mt List.mem_cons.2 other)
    obtain ⟨own, parent, rfl, free, below⟩ := ih others
    exact ⟨Keyed.set first e own, parent, rfl, by rw [Keyed.get?_set_of_ne differs, free], below⟩
  | @pass names s first count index item inside ih =>
    obtain ⟨differs, others⟩ := not_or.1 (mt List.mem_cons.2 other)
    obtain ⟨own, parent, rfl, free, below⟩ := ih others
    exact ⟨_, _, rfl, Keyed.get?_set_of_ne differs _ [], below_of_child free below⟩

theorem PageScope.inside (opened : a.PageScope root names s) (other : name ∉ names) : Below [name] root s := by
  obtain ⟨own, parent, rfl, free, below⟩ := opened.exists_child other
  exact below_of_child free below

/-! ## Header fields of one line -/

section Fields

variable {key text : String} {e : Expr} (line : key = "title" ∨ key = "date" ∨ key = "layout")

include line

theorem parseField_line (shown : Text.isBlankText text = false) (read : Expr.parse .line text = .ok e) :
    Expr.parseField key text = .ok e := by
  have other : key ≠ "tags" ∧ key ≠ "category" := by
    obtain rfl | rfl | rfl := line <;> decide
  rw [Expr.parseField, if_neg other.1, if_neg other.2, shown, if_neg Bool.false_ne_true, if_pos line, read]

theorem parseField_bare (shown : Text.isBlankText text = false) (bare : Bare text.toList) :
    Expr.parseField key text = .ok (classify text.toList) :=
  parseField_line line shown (parse_of_scan rfl (scan_bare bare (ends_nil _)))

theorem parseField_text (shown : Text.isBlankText e.text = false) (parsed : Parsed e)
    (kept : ∀ leaf ∈ e.leaves, ¬leaf.Lossy) : Expr.parseField key e.text = .ok e :=
  parseField_line line shown (parse_of_scan rfl (parsed.reads kept (ends_nil _)))

end Fields

/-! ## Reading from a page and from the site -/

/-- A field that can be read in the site's scope with the names of a page behind a screen is read
there and on the page, in every scope that comes up, to the same end: the same value, none, or
the same fault. -/
theorem reads_alike (canceled : Bool) {depth deeper : ℕ} (le : depth ≤ deeper) (opened : a.PageScope root names s)
    (b : Document) (field : String) {outcome : Except Fault (Option Value)}
    (ends : b.property? (reducerOfDepth Builtin.toolbox canceled depth) field (root.screened names) =
      Eval.ofExcept outcome)
    (clear : outcome ≠ .error screenFault) :
    b.property? (reducerOfDepth Builtin.toolbox canceled deeper) field s = Eval.ofExcept outcome ∧
      b.property? (reducerOfDepth Builtin.toolbox canceled deeper) field root = Eval.ofExcept outcome := by
  have carries := reducerOfDepth_carriesOver canceled le
  have onPage := Scope.screens_screened fun name (other : name ∉ names) => opened.inside other
  have onSite : (root.screened names).Screens root := Scope.screens_screened fun _ _ => .self
  exact ⟨b.property?_carriesOver carries onPage field outcome ends clear,
    b.property?_carriesOver carries onSite field outcome ends clear⟩

/-- `title: (format date '%Y')` is read alike on a page with an author, in a loop over items. -/
theorem reads_alike_title :
    let a : Document := ⟨0, .parse "a.md", [("author", .variable "kekyo")]⟩
    let b : Document := ⟨1, .parse "b.md", [("date", .value (.date ⟨1714953600, 0, 0⟩)),
      ("title", .apply (.variable "format") [.variable "date", .value (.str "%Y")])]⟩
    let root := Scope.root (Builtin.bindings 0)
    let page := (a.scope root).set "entry" (.value (.entry (.document a)))
    ∀ depth ≥ 4,
      b.property? (reducerOfDepth Builtin.toolbox false depth) "title"
          (Template.passScope "item" 2 1 page (.entry (.document b))) = pure (some (.str "2024")) ∧
        b.property? (reducerOfDepth Builtin.toolbox false depth) "title" root = pure (some (.str "2024")) := by
  intro a b root page depth deep
  have opened : a.PageScope root ("item" :: "entry" :: Keyed.keys a.bindings) _ :=
    .pass "item" 2 1 (.entry (.document b)) (.named "entry" (.value (.entry (.document a))) .page)
  have ends : b.property? (reducerOfDepth Builtin.toolbox false 4) "title"
      (root.screened ("item" :: "entry" :: Keyed.keys a.bindings)) = pure (some (.str "2024")) := by cbv
  exact reads_alike false deep opened b "title" ends (by simp)

/-- A word of a header means another thing to a page that has a field of that name: with
`format: html` the title `(format date '%Y')` of another document cannot be read. -/
theorem title_captured :
    ∃ format date title,
      Expr.parseField "format" "html" = .ok format ∧ Expr.parseField "date" "2024-05-06" = .ok date ∧
        Expr.parseField "title" "(format date '%Y')" = .ok title ∧
        let a : Document := ⟨0, .parse "a.md", [("format", format)]⟩
        let b : Document := ⟨1, .parse "b.md", [("date", date), ("title", title)]⟩
        let root := Scope.root (Builtin.bindings 0)
        let r := reducerOfDepth Builtin.toolbox false 4
        b.property? r "title" root = pure (some (.str "2024")) ∧
          b.property? r "title" (a.scope root) = Eval.fail (.call (.notFunction "format" "string")) := by
  have date : Expr.parseField "date" "2024-05-06" = .ok (.value (.date ⟨1714953600, 0, 0⟩)) := by
    have figures : ∀ c ∈ "2024-05-06".toList, IsFigure c := by simp [IsFigure]
    have bare : Bare "2024-05-06".toList := ⟨by decide, fun c mem => plain_of_isFigure (figures c mem)⟩
    have whole : Decimal.readInt64? "2024-05-06".toList = none := by decide +kernel
    have decimal : readFloatLiteral? "2024-05-06".toList = none := by cbv
    have noName : isIdentifier "2024-05-06".toList = false := by decide +kernel
    have read : Calendar.readTimestamp? "2024-05-06".toList = some ⟨1714953600, 0, 0⟩ := by decide +kernel
    rw [parseField_bare (by simp) (by decide +kernel) bare, classify, if_neg (by decide), if_neg (by decide), whole]
    simp only [decimal, noName, read, Bool.false_eq_true, if_false]
  have title : Expr.parseField "title" "(format date '%Y')" =
      .ok (.apply (.variable "format") [.variable "date", .value (.str "%Y")]) := by
    have names : ∀ name ∈ ["format", "date"], Leaf (.variable name) := by
      intro name mem
      simp only [List.mem_cons, List.not_mem_nil, or_false] at mem
      obtain rfl | rfl := mem <;>
        exact .name (by decide +kernel) (classify_name (by decide +kernel) (by decide) (by decide))
    have parsed : Parsed (.apply (.variable "format") [.variable "date", .value (.str "%Y")]) :=
      .apply (.leaf (names _ (by simp))) (by simp) (by simpa using ⟨.leaf (names _ (by simp)), .leaf (.str "%Y")⟩)
    have text : (Expr.apply (.variable "format") [.variable "date", .value (.str "%Y")]).text =
        "(format date '%Y')" := by cbv
    rw [← text]
    exact parseField_text (by simp) (text ▸ by decide +kernel) parsed (by simp [Expr.leaves, exprLeaves, Expr.Lossy])
  exact ⟨.variable "html", _, _, by cbv, date, title, by cbv, by cbv⟩

end Folio.Document
