import Folio.Aggregate
import Folio.Build.Layout
import Folio.Builtin.Basic
import Folio.Eval.Machine
import Folio.Page.Bytes
import Folio.Settings.Basic

/-!
# What is to be built

Before anything is written, the headers of all documents are read.  They decide which
documents are published, and from those the tags and categories of the whole site are
known before the first page is rendered.
-/

namespace Folio

open Calendar (Timestamp)

/-! ## The scope of the site -/

def Settings.siteInfo (s : Settings) (now : Timestamp) : Builtin.SiteInfo :=
  { title := s.site.title
    author := s.site.author
    lang := s.site.lang
    timezone := s.offset
    generated := now }

/-- The scope around all documents: the built-in functions, what the settings say of the
site, and then the metadata, which can bind any of these names anew. -/
def Settings.siteScope (s : Settings) (now : Timestamp) : Scope :=
  (Builtin.bindings 0 ++ (s.siteInfo now).bindings ++ s.metadataBindings).foldl
    (fun scope (name, e) => scope.set name e) (.root [])

/-! ## Documents -/

def readHeaderOf (tree : FileTree) (path : String) : Except Failure Fields :=
  let header := match tree.readFile [] path with
    | .ok bytes => Page.readHeader path bytes
    | .error fault => .error (.file path fault)
  match header with
  | .ok fields => .ok fields
  | .error fault => .error ((Failure.ofFault fault).within (.readingHeader path))

/-- A source, with the document that it holds if it is one. -/
structure Reading where
  source : Source
  document : Option Document

/-- Reads the headers of all documents among sources; `id` numbers the first. -/
def readHeaders (tree : FileTree) (id : Nat) : List Source → Except Failure (List Reading)
  | [] => .ok []
  | s :: more =>
    if s.isDocument then do
      let header ← readHeaderOf tree s.physical
      let rest ← readHeaders tree (id + 1) more
      .ok (⟨s, some ⟨id, s.relative, header⟩⟩ :: rest)
    else do
      let rest ← readHeaders tree id more
      .ok (⟨s, none⟩ :: rest)

inductive BuildTask where
  | render (source : Source) (document : Document)
  | copy (source : Source)

def BuildTask.source : BuildTask → Source
  | .render source _ => source
  | .copy source => source

def BuildTask.document? : BuildTask → Option Document
  | .render _ document => some document
  | .copy _ => none

/-- The tasks for sources: what is no document is copied, and an unpublished document gives
none. -/
def tasksOf (r : Reducer) (s : Scope) : List Reading → Eval (List BuildTask)
  | [] => pure []
  | ⟨source, none⟩ :: more => do
    let rest ← tasksOf r s more
    pure (.copy source :: rest)
  | ⟨source, some document⟩ :: more => do
    let published ← document.published r s
    let rest ← tasksOf r s more
    pure (if published then .render source document :: rest else rest)

structure Survey where
  /-- The number of documents, published or not. -/
  documentCount : Nat
  tasks : List BuildTask

def Survey.published (s : Survey) : List Document :=
  s.tasks.filterMap BuildTask.document?

def survey (tree : FileTree) (settings : Settings) (r : Reducer) (s : Scope) :
    Except Failure Survey := do
  let sources ← collectSources tree settings.build.output [] settings.build.content
  let readings ← readHeaders tree 0 sources
  let tasks ← Failure.ofEval (tasksOf r s readings)
  .ok ⟨readings.countP (·.document.isSome), tasks⟩

/-! ## The plan -/

structure Plan where
  /-- The scope around all documents, in which the tags and categories are bound too. -/
  scope : Scope
  layouts : Layouts
  templates : String
  output : String

/-- Binds the tags and categories of documents in a scope. -/
def bindAggregates (r : Reducer) (s : Scope) (documents : List Document) : Eval Scope := do
  let firstId := documents.foldl (fun next d => max next (d.id + 1)) 0
  let tags ← tagIndex r firstId s documents
  let root ← categoryTree r (firstId + tags.length) s documents
  pure ((Builtin.aggregateBindings tags root).foldl (fun s (name, e) => s.set name e) s)

def plan (tree : FileTree) (settings : Settings) (r : Reducer) (s : Scope)
    (documents : List Document) : Except Failure Plan := do
  let scope ← Failure.ofEval (bindAggregates r s documents)
  let layouts ← loadLayouts tree settings.build.templates
  .ok ⟨scope, layouts, settings.build.templates, settings.build.output⟩

end Folio
