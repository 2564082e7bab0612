import Folio.Build.Survey
import Folio.Markup.Html
import Folio.Template.Render

/-!
# Tasks of a build

A task makes one file of the site from one source.  A document is rendered, put into its
layout, and written as a page; everything else is copied.  A file is first written beside
its place under another name, so that no half of it is ever seen there.
-/

namespace Folio

def contentBodyKey : String := "contentBody"

/-! ## Pages -/

/-- The name of the layout that a document asks for. -/
def layoutFor (r : Reducer) (s : Scope) : Eval String := do
  let name ← r.reduceToText (.variable "layout") s
  let name := Text.trim name
  pure (if name.isEmpty then Builtin.defaultLayout else name)

def Plan.documentScope (p : Plan) (d : Document) : Scope :=
  (d.scope p.scope).set Builtin.entryKey (.value (.entry (.document d)))

/-- The page that a document with this text becomes. -/
def Plan.page (p : Plan) (r : Reducer) (d : Document) (text : String) : Except Failure String := do
  let body ← Failure.ofFormat (Page.bodyOf text)
  let template ← Failure.ofFormat (Template.parseMarkdown body)
  let scope := p.documentScope d
  let markdown ← Failure.ofEval (template.render r scope)
  let scope := scope.set contentBodyKey (.value (.str (Markup.toHtml markdown)))
  let name ← Failure.ofEval (layoutFor r scope)
  match Keyed.get? name p.layouts with
  | some layout => Failure.ofEval (layout.render r scope)
  | none => .error (.of (.layoutMissing name p.templates))

/-! ## Writing -/

def BuildTask.target (output : String) : BuildTask → String
  | .render _ document => document.path.under output
  | .copy source => source.relative.under output

/-- Where a file is written before it is moved to its place. -/
def temporaryPath (target : String) : String :=
  FilePath.join (FilePath.directory target) ("." ++ (FilePath.fileName? target).getD "" ++ ".tmp")

/-- Writes a file of the site.  Directories that cannot be made show when the file is
written.  If it cannot be written, or cannot be moved, nothing of it stays. -/
def writeOutput (target : String) (bytes : List UInt8) : FileWork Unit := do
  let temporary := temporaryPath target
  let refused (path : String) (fault : FileFault) : Failure := .ofFault (.file path fault)
  FileWork.alter fun tree => (tree.makeDirectories [] (FilePath.directory target)).1
  tryCatch
    (do
      FileWork.attempt (fun tree => tree.writeFile [] temporary bytes) (refused temporary)
      FileWork.attempt (fun tree => tree.moveFile [] temporary target) (refused target))
    fun failure => do
      FileWork.alter fun tree => tree.discardFile [] temporary
      FileWork.fail failure

/-! ## Doing a task -/

def readSource (source : Source) : FileWork (List UInt8) := do
  match ← FileWork.look fun tree => tree.readFile [] source.physical with
  | .ok bytes => pure bytes
  | .error fault => FileWork.fail (.ofFault (.file source.physical fault))

/-- The bytes of the file that a task makes from those of its source. -/
def BuildTask.make (p : Plan) (r : Reducer) : BuildTask → List UInt8 → Except Failure (List UInt8)
  | .copy _, bytes => if r.canceled then .error (.ofFault .canceled) else .ok bytes
  | .render source document, bytes =>
    match Text.decode? bytes with
    | none => .error (.ofFault (.file source.physical .invalidText))
    | some text => (p.page r document text).map Text.encode

/-- Reads the source of a task and makes the bytes of its file. -/
def BuildTask.product (p : Plan) (r : Reducer) (t : BuildTask) : FileWork (List UInt8) := do
  let bytes ← readSource t.source
  FileWork.ofExcept (t.make p r bytes)

/-- Does a task.  Nothing is written any more once the work has been canceled. -/
def BuildTask.run (p : Plan) (r : Reducer) (t : BuildTask) : FileWork Unit :=
  FileWork.within (.building t.source.physical) do
    let bytes ← t.product p r
    if r.canceled then FileWork.fail (.ofFault .canceled)
    else writeOutput (t.target p.output) bytes

end Folio
