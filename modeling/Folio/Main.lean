import Std.Time.DateTime.Timestamp
import Folio.Program

/-!
# The command

The program as a process.  It takes a picture of the directories that the command line and
the settings lead to, lets the program work on the picture, and carries over what has
changed.  Links in the directories are neither followed nor shown.
-/

namespace Folio.Shell

open Command (Invocation)

/-- The place that a path leads to by its names alone. -/
def placeOf (working : Place) (path : String) : Place :=
  (FilePath.namesOf path).foldl
    (fun place name => if name = ".." then place.dropLast else place ++ [name])
    (FileTree.startOf working path)

def entryAt (place : Place) : IO.FS.DirEntry :=
  { root := FilePath.ofPlace place, fileName := "" }

def contentAt (place : Place) : IO FileNode := do
  let bytes ← IO.FS.readBinFile (entryAt place).root
  pure (.file bytes.data.toList)

/-- Adds what lies at a place to the picture, and with `deep` all that lies below. -/
partial def look (tree : FileTree) (place : Place) (deep : Bool) : IO FileTree := do
  if ← (entryAt place).root.isDir then
    let tree := tree.put place .directory
    if deep then
      let entries ← (entryAt place).root.readDir
      entries.foldlM (fun tree entry => do
        let found ← entry.path.symlinkMetadata
        match found.type with
        | .dir | .file => look tree (place ++ [entry.fileName]) true
        | _ => pure tree) tree
    else pure tree
  else if ← (entryAt place).root.pathExists then
    let node ← contentAt place
    pure (tree.put place node)
  else pure tree

/-- Adds the directories on the way to a place to the picture, and then what lies there. -/
def lookAlong (tree : FileTree) (place : Place) (deep : Bool) : IO FileTree := do
  let onTheWay := (List.range place.length).map place.take
  let tree ← onTheWay.foldlM (fun tree before => do
    if ← (entryAt before).root.isDir then pure (tree.put before .directory) else pure tree) tree
  look tree place deep

/-- The picture that an invocation needs: the settings file, and the directories that the
settings name. -/
def picture (working : Place) (i : Invocation) : IO FileTree := do
  let at_ := placeOf working
  let root := i.root.getD Settings.defaultRoot
  let tree ← lookAlong .empty working false
  let tree ← lookAlong tree (at_ root) false
  let tree ← lookAlong tree (at_ (FilePath.join root i.settings)) false
  match Settings.load tree working i with
  | .error _ => pure tree
  | .ok settings =>
    let tree ← lookAlong tree (at_ settings.path) false
    match i.request with
    | .create _ => lookAlong tree (at_ settings.root) true
    | .build .. =>
      let named := settings.build.output :: settings.build.templates :: settings.build.content
      named.foldlM (fun tree path => lookAlong tree (at_ path) true) tree

/-- Removes from the file system what is only in the earlier picture, innermost first, and
writes what is only in the later one. -/
def carryOver (earlier later : FileTree) : IO Unit := do
  for (place, node) in earlier.nodes.reverse do
    if (later.get? place).isNone then
      match node with
      | .directory => IO.FS.removeDirAll (entryAt place).root
      | .file _ => IO.FS.removeFile (entryAt place).root
  for (place, node) in later.nodes do
    if earlier.get? place != some node then
      match node with
      | .directory => IO.FS.createDirAll (entryAt place).root
      | .file bytes => IO.FS.writeBinFile (entryAt place).root (ByteArray.mk bytes.toArray)

def now : IO Calendar.Timestamp := do
  let moment ← Std.Time.Timestamp.now
  let nanos := moment.toNanosecondsSinceUnixEpoch.val
  pure ⟨nanos / 1000000000, (nanos % 1000000000).toNat, 0⟩

def run (arguments : List String) : IO UInt32 := do
  let current ← IO.currentDir
  let working := placeOf [] current.toString
  let earlier ← match Command.parse arguments with
    | .ok i => picture working i
    | .error _ => pure .empty
  let time ← now
  let console ← IO.getStdout
  let colour ← console.isTty
  let outcome := Program.run earlier working time colour arguments
  carryOver earlier outcome.tree
  console.putStr outcome.output
  console.flush
  let errors ← IO.getStderr
  errors.putStr outcome.errors
  pure outcome.code

end Folio.Shell

def main (arguments : List String) : IO UInt32 :=
  Folio.Shell.run arguments
