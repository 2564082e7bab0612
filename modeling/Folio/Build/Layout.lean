import Folio.Build.Source
import Folio.FileWork
import Folio.Keyed
import Folio.Template.Basic

/-!
# Layouts

A layout is a template that a document is put into.  The layouts of a site are the files of
its templates directory with the right extension; a document names one by its path without
the extension.
-/

namespace Folio

def layoutExtension : String := "html"

abbrev Layouts := List (String × Template)

/-- The name of the layout in a file that these names lead to. -/
def layoutNameOf (names : List String) : String :=
  (SitePath.ofSegments (names.dropLast ++ (names.getLast?.map SitePath.stemOf).toList)).text

def readLayout (tree : FileTree) (path : String) : Except Failure Template :=
  let unreadable (fault : FileFault) := (Failure.of (.file fault)).within (.readingLayout path)
  match tree.readFile [] path with
  | .error fault => .error (unreadable fault)
  | .ok bytes =>
    match Text.decode? bytes with
    | none => .error (unreadable .invalidText)
    | some text =>
      match Template.parse text with
      | .ok template => .ok template
      | .error fault => .error ((Failure.ofFault (.format fault)).within (.parsingLayout path))

def readLayouts (tree : FileTree) (known : Layouts) : List FoundFile → Except Failure Layouts
  | [] => .ok known
  | file :: files =>
    if FilePath.extension? file.path == some layoutExtension then do
      let template ← readLayout tree file.path
      readLayouts tree (Keyed.set (layoutNameOf file.names) template known) files
    else readLayouts tree known files

/-- The layouts of a templates directory; a missing one has none. -/
def loadLayouts (tree : FileTree) (templates : String) : Except Failure Layouts :=
  if tree.isDirectory [] templates then
    match tree.filesIn templates none with
    | .ok files => readLayouts tree [] files
    | .error fault => .error ((Failure.of (.search templates fault)).within (.searching templates))
  else .ok []

end Folio
