import Folio.Failure
import Folio.FileTree

/-!
# Sources of a build

Every file under a content directory is a source.  All content directories are laid over
one another, so no two of them may hold a file at the same path.  The output directory may
lie inside a content directory; what is in it is no source.  The other way round, a build
would eat its own output.
-/

namespace Folio

structure FoundFile where
  path : String
  /-- The names that lead to it from the directory. -/
  names : List String
  deriving DecidableEq, Repr

def clutterNames : List String := [".DS_Store"]

/-- What lies at names below a directory is hidden: it is, or lies in, what the excluded path
leads to. -/
def isHidden (directory : String) (excluded : Option String) (names : List String) : Bool :=
  match excluded.bind fun path => FilePath.namesBelow? path directory with
  | some hidden => hidden.isPrefixOf names
  | none => false

/-- What lies at names below a directory, if it is a file that counts. -/
def foundFile? (directory : String) (excluded : Option String) :
    Place × FileNode → Option FoundFile
  | (_, .directory) => none
  | (names, .file _) =>
    let path := names.foldl FilePath.join directory
    if isHidden directory excluded names then none
    else if ((FilePath.fileName? path).any fun name => clutterNames.contains name) then none
    else some ⟨path, names⟩

/-- The files of a directory and of those inside it, in order, without what is excluded.  A
file stands for a directory that holds only itself. -/
def FileTree.filesIn (tree : FileTree) (directory : String) (excluded : Option String) :
    Except FileFault (List FoundFile) :=
  match tree.resolve [] directory with
  | .error fault => .error fault
  | .ok place =>
    let itself := (tree.get? place).toList.map fun node => (([] : Place), node)
    .ok ((itself ++ tree.below place).filterMap (foundFile? directory excluded))

structure Source where
  physical : String
  /-- Its path in the site, which is the one from its content directory. -/
  relative : SitePath
  deriving DecidableEq, Repr

def documentExtension : String := "md"

def Source.isDocument (s : Source) : Bool :=
  FilePath.extension? s.physical == some documentExtension

def Source.ofFile (file : FoundFile) : Source :=
  ⟨file.path, SitePath.ofSegments file.names⟩

/-- Adds sources to others, none of which may have the same path in the site. -/
def addSources (known : List Source) : List Source → Except Failure (List Source)
  | [] => .ok known
  | s :: more =>
    if known.any fun other => other.relative.text == s.relative.text then
      .error (.of (.sameSource s.relative))
    else addSources (known ++ [s]) more

def sourcesIn (tree : FileTree) (output root : String) : Except Failure (List Source) :=
  if FilePath.isWithin root output then .error (.of (.contentInOutput root))
  else
    match tree.filesIn root (some output) with
    | .ok files => .ok (files.map Source.ofFile)
    | .error fault => .error ((Failure.of (.search root fault)).within (.searching root))

/-- The sources of all content directories, after those that are known. -/
def collectSources (tree : FileTree) (output : String) (known : List Source) :
    List String → Except Failure (List Source)
  | [] => .ok known
  | root :: roots => do
    let here ← sourcesIn tree output root
    let known ← addSources known here
    collectSources tree output known roots

end Folio
