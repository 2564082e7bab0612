import Folio.Aggregate

/-!
# Finding the way around a site

Links from the current document, names worked out at render time, and the neighbours
of a document in the order of dates; and links as blocks of their own.
-/

namespace Folio.Builtin

open Calendar (Timestamp)

def entryKey : String := "entry"

def pathKey : String := "path"

def targetPath? (v : Value) : Option SitePath :=
  match v.unwrapped with
  | .entry (.path p) => some p
  | .entry (.document d) => some d.path
  | .str text => some (SitePath.parse text)
  | _ => none

/-- The text names a place outside the site. -/
def isUrl : List Char → Bool
  | ':' :: '/' :: '/' :: _ => true
  | _ :: cs => isUrl cs
  | [] => false

variable {m : Type → Type} {σ : Type} [Monad m] [Scoping m σ]

/-- Where links lead from: the path of the current document, or the front page. -/
def linkSource (r : Evaluator m σ) (s : σ) : m SitePath := do
  match ← r.reduceBound? pathKey s with
  | some v => pure ((targetPath? v).getD (SitePath.parse "index.html"))
  | none => pure (SitePath.parse "index.html")

/-- `relative target`: the link from the current document to the target.  A URL is its own
link, and so is a value that leads nowhere. -/
def relative (r : Evaluator m σ) (args : List Expr) (s : σ) : m Expr := do
  match args with
  | [] => pure (.value (.str ""))
  | arg :: _ => do
    let v ← r.reduce arg s
    let leadsOut := match v with
      | .str text => isUrl text.toList
      | _ => false
    if leadsOut then pure (.value v)
    else
      match targetPath? v with
      | none => pure (.value v)
      | some target => do
        let source ← linkSource r s
        pure (.value (.str (SitePath.relative source target)))

/-- `lookup name`: the variable that the argument's text names. -/
def lookup (r : Evaluator m σ) (args : List Expr) (s : σ) : m Expr := do
  match args with
  | [] => pure (.value .null)
  | arg :: _ => do
    let name ← r.reduceToText arg s
    pure (.variable name)

/-! ## The order of dates -/

mutual

def nodeDocuments : CategoryNode → List Document
  | ⟨_, documents, children⟩ => documents ++ nodesDocuments children
termination_by structural node => node

/-- The documents of several nodes, one node after the other. -/
def nodesDocuments : List CategoryNode → List Document
  | [] => []
  | node :: nodes => nodeDocuments node ++ nodesDocuments nodes
termination_by structural nodes => nodes

end

def dateDocuments (r : Evaluator m σ) (s : σ) : List Document → m (List Dated)
  | [] => pure []
  | d :: ds => do
    let date ← d.date r s
    let dated ← dateDocuments r s ds
    pure (⟨date, d⟩ :: dated)

/-- The order by date, and by path where dates agree; no date comes last. -/
def compareDated (a b : Dated) : Ordering :=
  (compareDates a.date b.date).then (SitePath.compare a.document.source b.document.source)

/-- All aggregated documents in the order of dates. -/
def timeline (r : Evaluator m σ) (s : σ) : m (List Document) := do
  match ← r.reduceBound? rootCategoryKey s with
  | some (.entry (.category root)) => do
    let dated ← dateDocuments r s (nodeDocuments root.node)
    pure ((dated.mergeSort fun a b => compareDated a b != .gt).map (·.document))
  | _ => pure []

def documentOf? : Value → Option Document
  | .entry (.document d) => some d
  | .entry (.loopItem i) =>
    match i.value with
    | .entry (.document d) => some d
    | _ => none
  | _ => none

/-- The document whose neighbour is asked for: the argument, or else the current one. -/
def currentDocument? (r : Evaluator m σ) (args : List Expr) (s : σ) : m (Option Document) := do
  match args with
  | arg :: _ => do
    let v ← r.reduce arg s
    pure (documentOf? v)
  | [] => do
    let v? ← r.reduceBound? entryKey s
    pure (v?.bind documentOf?)

inductive Direction where
  | older
  | newer
  deriving DecidableEq, Repr

/-- The neighbour of the first document with this source. -/
def neighbour? (direction : Direction) (source : SitePath) (documents : List Document) :
    Option Document :=
  match documents.findIdx? fun d => d.source == source with
  | none => none
  | some i =>
    match direction with
    | .older => if i = 0 then none else documents[i - 1]?
    | .newer => documents[i + 1]?

/-- `older [entry]` and `newer [entry]`: the neighbour in the order of dates, or null. -/
def neighbour (direction : Direction) (r : Evaluator m σ) (args : List Expr) (s : σ) :
    m Expr := do
  match ← currentDocument? r args s with
  | none => pure (.value .null)
  | some current => do
    let documents ← timeline r s
    match neighbour? direction current.source documents with
    | some d => pure (.value (.entry (.document d)))
    | none => pure (.value .null)

/-! ## Link blocks: `card url` and `embed url` -/

def escapeAttributeChar (c : Char) : List Char :=
  match c with
  | '&' => "&amp;".toList
  | '<' => "&lt;".toList
  | '>' => "&gt;".toList
  | '"' => "&quot;".toList
  | '\'' => "&#39;".toList
  | _ => [c]

def escapeAttribute (text : String) : String :=
  String.ofList (text.toList.flatMap escapeAttributeChar)

def linkBlock (className url : String) : String :=
  let url := escapeAttribute url
  "<div class=\"" ++ className ++ "\"><a href=\"" ++ url ++
    "\" target=\"_blank\" rel=\"noopener noreferrer\">" ++ url ++ "</a></div>"

/-- The link block for the argument's text; nothing for a blank one. -/
def link (className : String) (r : Evaluator m σ) (args : List Expr) (s : σ) : m Expr := do
  match args with
  | [] => pure (.value (.str ""))
  | arg :: _ => do
    let url ← r.reduceToText arg s
    if Text.isBlankText url then pure (.value (.str ""))
    else pure (.value (.str (linkBlock className (Text.trim url))))

end Folio.Builtin
