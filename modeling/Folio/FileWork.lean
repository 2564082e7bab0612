import Folio.Eval.Reducer
import Folio.Failure
import Folio.FileTree

/-!
# Work on files

Work that looks at a file tree, changes it, and may fail.  What it changed before it failed
stays changed.  All paths are full paths, so that no working directory matters.
-/

namespace Folio

abbrev FileWork (α : Type) := ExceptT Failure (StateM FileTree) α

namespace FileWork

/-- Does the work on a tree: what came of it, and the tree afterwards. -/
def perform {α : Type} (work : FileWork α) (tree : FileTree) : Except Failure α × FileTree :=
  StateT.run (ExceptT.run work) tree

def fail {α : Type} (failure : Failure) : FileWork α :=
  throw failure

def ofExcept {α : Type} : Except Failure α → FileWork α
  | .ok a => pure a
  | .error failure => fail failure

def look {α : Type} (view : FileTree → α) : FileWork α := do
  let tree ← get
  pure (view tree)

def alter (change : FileTree → FileTree) : FileWork Unit :=
  modify change

def attempt (change : FileTree → Except FileFault FileTree) (refused : FileFault → Failure) :
    FileWork Unit := do
  match ← look change with
  | .ok tree => alter fun _ => tree
  | .error fault => fail (refused fault)

/-- Does the work, and says of a failure what it came from. -/
def within {α : Type} (activity : Activity) (work : FileWork α) : FileWork α :=
  tryCatch work fun failure => fail (failure.within activity)

def makeDirectories (path : String) (refused : FileFault → Failure) : FileWork Unit := do
  let (tree, made) ← look fun tree => tree.makeDirectories [] path
  alter fun _ => tree
  match made with
  | .ok () => pure ()
  | .error fault => fail (refused fault)

def writeText (path text : String) (refused : FileFault → Failure) : FileWork Unit :=
  attempt (fun tree => tree.writeFile [] path (Text.encode text)) refused

end FileWork

def Failure.ofFault (fault : Fault) : Failure :=
  .of (.fault fault)

/-- What an evaluation comes to; one that has no end is a failure too. -/
def Failure.ofEval {α : Type} (e : Eval α) : Except Failure α :=
  match ExceptT.run e with
  | some (.ok a) => .ok a
  | some (.error fault) => .error (.ofFault fault)
  | none => .error (.of .endless)

def Failure.ofFormat {α : Type} : Except FormatFault α → Except Failure α
  | .ok a => .ok a
  | .error fault => .error (.ofFault (.format fault))

end Folio
