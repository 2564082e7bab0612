import Folio.Build.Task
import Folio.Proofs.Entry.Capture
import Folio.Proofs.Eval.Settled

/-!
# The title of a page and the title in lists

A page shows its title as `title`, and whoever lists the page shows it as `entry.title`.  The one is
a binding of the document's scope, which has the default where the header has nothing or a blank
literal; the other is a property, which gives way to the default where the value is null or blank.

Main statement: `title_and_entry_title`.
-/

namespace Folio

open Scope (screens_of_alike)
open Text (isBlankText)

/-- A value that shows nothing: null, or a text without a visible character. -/
inductive Value.Blank : Value → Prop where
  | null : Blank .null
  | text {text : String} (blank : isBlankText text = true) : Blank (.str text)

namespace Document

variable {d : Document} {key other : String} {v : Value} {e : Expr} {fields : Fields}

/-! ## What a document binds -/

/-- The header says nothing under this key: there is no such field, or a blank literal. -/
def Silent (d : Document) (key : String) : Prop :=
  ∀ e, Keyed.get? key d.header = some e → isBlankLiteral e = true

/-- A blank literal is the literal of a text without a visible character. -/
theorem exists_blank_of_isBlankLiteral (blank : isBlankLiteral e = true) :
    ∃ text, e = .value (.str text) ∧ isBlankText text = true := by
  cases e with
  | value v =>
    cases v with
    | str text => exact ⟨text, rfl, blank⟩
    | null | bool | int | float | date | list | entry | callable => exact absurd blank Bool.false_ne_true
  | «variable» | array | apply => exact absurd blank Bool.false_ne_true

theorem get?_withDefault_of_ne (differs : other ≠ key) :
    Keyed.get? other (d.withDefault fields (key, v)) = Keyed.get? other fields := by
  simp only [withDefault]
  split
  · split_ifs
    · exact Keyed.get?_set_of_ne differs _ _
    · rfl
  · exact Keyed.get?_set_of_ne differs _ _

theorem get?_withDefault_of_silent (silent : d.Silent key) :
    Keyed.get? key (d.withDefault fields (key, v)) = some (.value v) := by
  simp only [withDefault]
  split
  case h_1 e found => rw [if_pos (silent e found), Keyed.get?_set_self]
  case h_2 => exact Keyed.get?_set_self ..

theorem withDefault_of_said (found : Keyed.get? key d.header = some e) (said : isBlankLiteral e = false) :
    d.withDefault fields (key, v) = fields := by
  simp only [withDefault, found, said, Bool.false_eq_true, if_false]

theorem get?_bindings_title :
    Keyed.get? "title" d.bindings = Keyed.get? "title" (d.withDefault d.header ("title", d.defaultTitle)) := by
  have paths : "title" ≠ "path" ∧ "title" ≠ "markdownPath" := by decide
  have later : "title" ≠ "date" ∧ "title" ≠ "category" ∧ "title" ≠ "tags" ∧ "title" ≠ "published" := by decide
  simp only [bindings, defaults, List.foldl_cons, List.foldl_nil, Keyed.get?_set_of_ne, get?_withDefault_of_ne, paths,
    later, ne_eq, not_false_eq_true]

theorem get?_bindings_entry : Keyed.get? "entry" d.bindings = Keyed.get? "entry" d.header := by
  have paths : "entry" ≠ "path" ∧ "entry" ≠ "markdownPath" := by decide
  have defaulted : "entry" ≠ "title" ∧ "entry" ≠ "date" ∧ "entry" ≠ "category" ∧ "entry" ≠ "tags" ∧
      "entry" ≠ "published" := by decide
  simp only [bindings, defaults, List.foldl_cons, List.foldl_nil, Keyed.get?_set_of_ne, get?_withDefault_of_ne, paths,
    defaulted, ne_eq, not_false_eq_true]

/-! ## The title as a property -/

def stemText (d : Document) : String := d.source.stem?.getD ""

/-- The title of a document whose header gives this value. -/
def titleFor (d : Document) : Value → Value
  | .str text => if isBlankText text then d.defaultTitle else .str text
  | .null => d.defaultTitle
  | v => v

theorem titleFor_of_blank (blank : v.Blank) : d.titleFor v = d.defaultTitle := by
  cases blank with
  | null => rfl
  | text blank => rw [titleFor, if_pos blank]

theorem titleFor_of_visible (visible : ¬v.Blank) : d.titleFor v = v := by
  cases v with
  | null => exact absurd .null visible
  | str text => rw [titleFor, if_neg fun blank => visible (.text blank)]
  | bool | int | float | date | list | entry | callable => rfl

theorem titleFor_defaultTitle (d : Document) : d.titleFor d.defaultTitle = d.defaultTitle := by
  by_cases blank : d.defaultTitle.Blank
  · exact titleFor_of_blank blank
  · exact titleFor_of_visible blank

theorem title_eq (d : Document) (r : Reducer) (s : Scope) :
    d.title r s = d.field? r "title" s >>= fun v? => pure (d.titleFor (v?.getD .null)) := by
  rw [title]
  congr 1
  funext v?
  cases v? with
  | none => rfl
  | some v => cases v <;> rfl

end Document

open Document (titleFor stemText isBlankLiteral)

/-! ## On the page of a document -/

section Page

variable {p : Plan} {d : Document} {canceled : Bool} {e : Expr} {v w : Value} {text : String}

theorem Plan.documentScope_eq (p : Plan) (d : Document) :
    p.documentScope d = .child (Keyed.set "entry" (.value (.entry (.document d))) d.bindings) p.scope := rfl

/-- A page binds what its document binds, and the entry, if the document leaves that to the page. -/
theorem alike_on_page (free : Keyed.get? "entry" d.header = none) (name : String) :
    (d.scope (p.documentScope d)).resolve? name = (p.documentScope d).resolve? name ∧
      (d.scope (p.documentScope d)).lookup name = (p.documentScope d).lookup name := by
  by_cases same : name = "entry"
  · have unbound : Keyed.get? name d.bindings = none := by rw [same, Document.get?_bindings_entry, free]
    simp [Document.scope, Scope.resolve?, Scope.lookup, Scope.lookupHolder, unbound]
  · have bound := Keyed.get?_set_of_ne same (.value (.entry (.document d))) d.bindings
    rw [Plan.documentScope_eq, Document.scope]
    cases own : Keyed.get? name d.bindings with
    | none => simp [Scope.resolve?, Scope.lookup, Scope.lookupHolder, own]
    | some e =>
      rw [own] at bound
      cases self : Scope.isSelf name e <;>
        simp [Scope.resolve?, Scope.lookup, Scope.lookupHolder, own, bound, self]

theorem settles_in_document_iff (free : Keyed.get? "entry" d.header = none) :
    Settles canceled (·.reduce e (d.scope (p.documentScope d))) v ↔
      Settles canceled (·.reduce e (p.documentScope d)) v := by
  have alike := alike_on_page (p := p) free
  constructor
  · exact fun settles => settles.of_screens (screens_of_alike fun name => ⟨(alike name).1.symm, (alike name).2.symm⟩)
  · exact fun settles => settles.of_screens (screens_of_alike alike)

theorem resolve?_entry_on_page : (p.documentScope d).resolve? "entry" = some (.value (.entry (.document d))) := by
  rw [Plan.documentScope_eq, Scope.resolve?, Keyed.get?_set_self]
  rfl

theorem get?_title_on_page (p : Plan) (d : Document) :
    Keyed.get? "title" (p.documentScope d).own =
      Keyed.get? "title" (d.withDefault d.header ("title", d.defaultTitle)) := by
  rw [Plan.documentScope_eq, Scope.own, Keyed.get?_set_of_ne (by decide), Document.get?_bindings_title]

/-- The title as a property is what the field settles on, and the default for a blank. -/
theorem settles_entryTitle_iff :
    Settles canceled (·.reduce (.variable "entry.title") (p.documentScope d)) w ↔
      ∃ v?, Settles canceled (fun r => d.field? r "title" (p.documentScope d)) v? ∧ w = d.titleFor (v?.getD .null) := by
  have parts : SitePath.pieces (· == '.') "entry.title".toList = ["entry".toList, "title".toList] := by decide
  have named (r : Reducer) : r.reduceVariable "entry.title" (p.documentScope d) =
      r.reduce (.value (.entry (.document d))) (p.documentScope d) >>= fun v =>
        r.follow (p.documentScope d) v ["title"] := by
    rw [Evaluator.reduceVariable, parts]
    simp only [Scoping.seen_bind, String.ofList_toList, resolve?_entry_on_page, List.map_cons, List.map_nil]
  have followed (r : Reducer) :
      r.follow (p.documentScope d) (.entry (.document d)) ["title"] = d.title r (p.documentScope d) := by
    simp only [Evaluator.follow, Entry.property?, Entry.ownProperty?, Document.property?, bind_assoc, pure_bind,
      bind_pure]
  rw [Settles.iff_of_succ (y := fun r => r.reduceVariable "entry.title" (p.documentScope d)) fun _ => rfl]
  simp only [named]
  rw [Settles.bind_iff (f := fun v r => r.follow (p.documentScope d) v ["title"]) .reduce]
  simp only [settles_value_iff, exists_eq_left, followed, Document.title_eq]
  exact Settles.bind_pure_iff .field?

/-! ### Where the header says nothing -/

theorem settles_title_of_silent (silent : d.Silent "title") :
    Settles canceled (·.reduce (.variable "title") (p.documentScope d)) d.defaultTitle := by
  have meant : (p.documentScope d).resolve? "title" = some (.value d.defaultTitle) := by
    have own := get?_title_on_page p d
    rw [Document.get?_withDefault_of_silent silent, Plan.documentScope_eq, Scope.own] at own
    rw [Plan.documentScope_eq, Scope.resolve?, own]
    rfl
  exact (settles_variable_iff (by decide) meant).2 (settles_value_iff.2 rfl)

theorem settles_entryTitle_of_silent (silent : d.Silent "title") :
    Settles canceled (·.reduce (.variable "entry.title") (p.documentScope d)) d.defaultTitle := by
  rw [settles_entryTitle_iff]
  cases found : Keyed.get? "title" d.header with
  | none =>
    simp only [Document.field?, found, Settles.pure_iff]
    exact ⟨none, rfl, rfl⟩
  | some e =>
    simp only [Document.field?, found, Scoping.inside_bind, Settles.bind_pure_iff .reduce]
    obtain ⟨text, rfl, blank⟩ := Document.exists_blank_of_isBlankLiteral (silent e found)
    exact ⟨_, ⟨_, settles_value_iff.2 rfl, rfl⟩, (d.titleFor_of_blank (.text blank)).symm⟩

/-! ### Where the header says something -/

/-- On the page the title is what the header's expression settles on there. -/
theorem settles_title_iff (found : Keyed.get? "title" d.header = some e) (said : isBlankLiteral e = false) :
    Settles canceled (·.reduce (.variable "title") (p.documentScope d)) v ↔
      Settles canceled (·.reduce e (p.documentScope d)) v := by
  by_cases self : e = .variable "title"
  · rw [self]
  · refine settles_variable_iff (by decide) ?_
    have own := get?_title_on_page p d
    rw [Document.withDefault_of_said found said, found, Plan.documentScope_eq, Scope.own] at own
    rw [Plan.documentScope_eq, Scope.resolve?, own]
    exact if_neg fun same => self (Scope.isSelf_iff.1 same)

/-- As a property the title is what the header's expression settles on in the document's own scope. -/
theorem settles_entryTitle_of_said (found : Keyed.get? "title" d.header = some e) :
    Settles canceled (·.reduce (.variable "entry.title") (p.documentScope d)) w ↔
      ∃ v, Settles canceled (·.reduce e (d.scope (p.documentScope d))) v ∧ w = d.titleFor v := by
  simp only [settles_entryTitle_iff, Document.field?, found, Scoping.inside_bind, Settles.bind_pure_iff .reduce]
  constructor
  · rintro ⟨_, ⟨v, settles, rfl⟩, rfl⟩
    exact ⟨v, settles, rfl⟩
  · rintro ⟨v, settles, rfl⟩
    exact ⟨some v, ⟨v, settles, rfl⟩, rfl⟩

theorem settles_entryTitle_iff_title (free : Keyed.get? "entry" d.header = none) :
    Settles canceled (·.reduce (.variable "entry.title") (p.documentScope d)) w ↔
      ∃ v, Settles canceled (·.reduce (.variable "title") (p.documentScope d)) v ∧ w = d.titleFor v := by
  by_cases silent : d.Silent "title"
  · have title : Settles canceled (·.reduce (.variable "title") (p.documentScope d)) d.defaultTitle :=
      settles_title_of_silent silent
    have entryTitle : Settles canceled (·.reduce (.variable "entry.title") (p.documentScope d)) d.defaultTitle :=
      settles_entryTitle_of_silent silent
    constructor
    · intro settles
      exact ⟨_, title, by rw [settles.unique entryTitle, Document.titleFor_defaultTitle]⟩
    · rintro ⟨v, settles, rfl⟩
      rwa [settles.unique title, Document.titleFor_defaultTitle]
  · obtain ⟨e, found, said⟩ : ∃ e, Keyed.get? "title" d.header = some e ∧ isBlankLiteral e = false := by
      simpa [Document.Silent] using silent
    simp only [settles_entryTitle_of_said found, settles_title_iff found said, settles_in_document_iff free]

/-! ### What is shown -/

theorem settles_write_text_iff {s : Scope} {other : String} :
    Settles canceled (·.writeIn (.str text) s) other ↔
      (∃ locale, Settles canceled (·.locale s) locale) ∧ other = text :=
  settles_write_iff fun _ _ => rfl

theorem settles_write_defaultTitle_iff {s : Scope} :
    Settles canceled (·.writeIn d.defaultTitle s) text ↔
      (∃ locale, Settles canceled (·.locale s) locale) ∧ text = d.stemText := by
  rw [Document.defaultTitle, Document.stemText]
  cases d.source.stem? with
  | none => exact settles_write_iff fun _ _ => rfl
  | some stem => exact settles_write_text_iff

/-- A blank value shows a blank. -/
theorem settles_write_blank_iff {s : Scope} (blank : v.Blank) :
    ∃ shown, isBlankText shown = true ∧ ∀ text, Settles canceled (·.writeIn v s) text ↔
      (∃ locale, Settles canceled (·.locale s) locale) ∧ text = shown := by
  cases blank with
  | null => exact ⟨"", rfl, fun _ => settles_write_iff fun _ _ => rfl⟩
  | @text text blank => exact ⟨text, blank, fun _ => settles_write_text_iff⟩

end Page

/-- The title of a document as its page shows it, and as a property of the entry that the page binds.
Where the header has no title or a blank literal, both are the name of the file.  Where it has an
expression, the page shows what that settles on among the page's bindings, and the property what it
settles on among the document's own, with the name of the file in the place of a value that is null
or blank.  Unless the header has a field `entry`, which the page hides, these bindings are alike; then
both show the same text, or the page shows a blank and the property the name of the file. -/
theorem title_and_entry_title (p : Plan) (d : Document) (canceled : Bool) :
    let page := p.documentScope d
    let titled := fun name v => Settles canceled (·.reduce (.variable name) page) v
    let shows := fun name text => Settles canceled (·.reduceToText (.variable name) page) text
    let tellable := ∃ locale, Settles canceled (·.locale page) locale
    (d.Silent "title" → ∀ name ∈ ["title", "entry.title"],
        titled name d.defaultTitle ∧ ∀ text, shows name text ↔ tellable ∧ text = d.stemText) ∧
      (∀ e, Keyed.get? "title" d.header = some e → isBlankLiteral e = false →
        (∀ v, titled "title" v ↔ Settles canceled (·.reduce e page) v) ∧
          ∀ w, titled "entry.title" w ↔ ∃ v, Settles canceled (·.reduce e (d.scope page)) v ∧ w = d.titleFor v) ∧
      (Keyed.get? "entry" d.header = none →
        (∀ w, titled "entry.title" w ↔ ∃ v, titled "title" v ∧ w = d.titleFor v) ∧
          ∀ v, titled "title" v →
            (¬v.Blank → ∀ text, shows "title" text ↔ shows "entry.title" text) ∧
              (v.Blank →
                (∃ blank, isBlankText blank = true ∧ ∀ text, shows "title" text ↔ tellable ∧ text = blank) ∧
                  ∀ text, shows "entry.title" text ↔ tellable ∧ text = d.stemText)) := by
  intro page titled shows tellable
  refine ⟨fun silent name mem => ?_,
    fun e found said => ⟨fun v => settles_title_iff found said, fun w => settles_entryTitle_of_said found⟩,
    fun free => ⟨fun w => settles_entryTitle_iff_title free, fun v settles => ?_⟩⟩
  · have settles : titled name d.defaultTitle := by
      obtain rfl | rfl : name = "title" ∨ name = "entry.title" := by simpa using mem
      · exact settles_title_of_silent silent
      · exact settles_entryTitle_of_silent silent
    exact ⟨settles, fun text => settles.text_iff.trans settles_write_defaultTitle_iff⟩
  · have entryTitle : titled "entry.title" (d.titleFor v) := (settles_entryTitle_iff_title free).2 ⟨v, settles, rfl⟩
    refine ⟨fun visible text => ?_, fun blank => ⟨?_, fun text => ?_⟩⟩
    · rw [Document.titleFor_of_visible visible] at entryTitle
      exact settles.text_iff.trans entryTitle.text_iff.symm
    · obtain ⟨shown, isBlank, written⟩ := settles_write_blank_iff blank
      exact ⟨shown, isBlank, fun text => settles.text_iff.trans (written text)⟩
    · rw [Document.titleFor_of_blank blank] at entryTitle
      exact entryTitle.text_iff.trans settles_write_defaultTitle_iff

/-- With `series: Ferns` and `title: series` both show `Ferns`. -/
theorem title_and_entry_title_series :
    let p : Plan := ⟨.root [], [], "templates", "docs"⟩
    let d : Document := ⟨0, .parse "notes/a.md", [("series", .value (.str "Ferns")), ("title", .variable "series")]⟩
    Settles false (·.reduceToText (.variable "title") (p.documentScope d)) "Ferns" ∧
      Settles false (·.reduceToText (.variable "entry.title") (p.documentScope d)) "Ferns" := by
  intro p d
  have titled : Settles false (·.reduce (.variable "title") (p.documentScope d)) (.str "Ferns") := by
    rw [settles_variable_iff (e := .variable "series") (by decide) rfl,
      settles_variable_iff (e := .value (.str "Ferns")) (by decide) rfl, settles_value_iff]
  have shown : Settles false (·.reduceToText (.variable "title") (p.documentScope d)) "Ferns" :=
    titled.text_iff.2 (settles_write_text_iff.2 ⟨⟨.invariant, 0, fun _ _ => rfl⟩, rfl⟩)
  have visible : ¬(Value.str "Ferns").Blank := by
    rintro (_ | blank)
    contradiction
  exact ⟨shown, ((((title_and_entry_title p d false).2.2 rfl).2 _ titled).1 visible "Ferns").1 shown⟩

/-- A title that another field leaves blank is blank on the page, but not in lists; and `entry` is
the document on its own page, but a field of that name for the document itself. -/
theorem title_shown_otherwise_in_lists :
    ∃ blank word number name field,
      Expr.parseField "subtitle" "" = .ok blank ∧ Expr.parseField "title" "subtitle" = .ok word ∧
        Expr.parseField "index" "5" = .ok number ∧ Expr.parseField "entry" "foo" = .ok name ∧
        Expr.parseField "title" "entry.index" = .ok field ∧
        let a : Document := ⟨0, .parse "a.md", [("subtitle", blank), ("title", word)]⟩
        let b : Document := ⟨1, .parse "b.md", [("entry", name), ("index", number), ("title", field)]⟩
        let p : Plan := ⟨.root [], [], "templates", "docs"⟩
        let r := reducerOfDepth Builtin.toolbox false 6
        (r.reduceToText (.variable "title") (p.documentScope a) = pure "" ∧
          r.reduceToText (.variable "entry.title") (p.documentScope a) = pure "a") ∧
        r.reduceToText (.variable "title") (p.documentScope b) = pure "5" ∧
          r.reduceToText (.variable "entry.title") (p.documentScope b) = pure "foo" := by
  have read {text : String} (shown : isIdentifier text.toList = true) (visible : Text.isBlankText text = false)
      (noTrue : text.toList.map Char.toLower ≠ "true".toList)
      (noFalse : text.toList.map Char.toLower ≠ "false".toList) :
      Expr.parseField "title" text = .ok (.variable text) := by
    have bare : Bare text.toList := by
      refine ⟨?_, plain_of_isIdentifier shown⟩
      intro empty
      rw [empty] at shown
      contradiction
    rw [Document.parseField_bare (.inl rfl) visible bare, classify_name shown noTrue noFalse]
  refine ⟨.value (.str ""), .variable "subtitle", .value (.int 5), .variable "foo", .variable "entry.index", by cbv, ?_,
    by cbv, by cbv, ?_, ⟨by cbv, by cbv⟩, by cbv, by cbv⟩
  · exact read (by decide +kernel) (by decide +kernel) (by decide) (by decide)
  · exact read (by decide +kernel) (by decide +kernel) (by decide) (by decide)

end Folio
