import Folio.Fault
import Folio.FilePath

/-!
# File trees

The file system as a value: what lies at which place.  A place is the list of names that
leads to it from the top; the places are kept in order, so that a directory comes before
what it holds and its entries come in the order of their names.  Everything that a build
does to files it does to a tree.
-/

namespace Folio

abbrev Place := List String

inductive FileNode where
  | directory
  | file (bytes : List UInt8)
  deriving DecidableEq, Repr, Inhabited

/-- What lies at the places of a file system, in order of place. -/
structure FileTree where
  nodes : List (Place × FileNode)
  deriving DecidableEq, Repr, Inhabited

namespace FileTree

def empty : FileTree :=
  ⟨[([], .directory)]⟩

/-! ## Places -/

def comparePlaces : Place → Place → Ordering
  | [], [] => .eq
  | [], _ :: _ => .lt
  | _ :: _, [] => .gt
  | a :: as, b :: bs => (Ord.compare a b).then (comparePlaces as bs)

def get? (tree : FileTree) (place : Place) : Option FileNode :=
  (tree.nodes.find? fun node => node.1 == place).map Prod.snd

def putNode (place : Place) (node : FileNode) :
    List (Place × FileNode) → List (Place × FileNode)
  | [] => [(place, node)]
  | (other, old) :: rest =>
    match comparePlaces place other with
    | .lt => (place, node) :: (other, old) :: rest
    | .eq => (place, node) :: rest
    | .gt => (other, old) :: putNode place node rest

def put (tree : FileTree) (place : Place) (node : FileNode) : FileTree :=
  ⟨putNode place node tree.nodes⟩

def remove (tree : FileTree) (place : Place) : FileTree :=
  ⟨tree.nodes.filter fun node => !place.isPrefixOf node.1⟩

def isDirectoryAt (tree : FileTree) (place : Place) : Bool :=
  tree.get? place == some .directory

/-- What lies below a place, each with the names that lead to it from there, in order. -/
def below (tree : FileTree) (place : Place) : List (Place × FileNode) :=
  tree.nodes.filterMap fun (other, node) =>
    if place.isPrefixOf other && other != place then some (other.drop place.length, node) else none

/-! ## Paths

A path that does not begin at the top begins in the working directory.
-/

def maxNameLength : Nat := 255

/-- Follows names from a place, which is a directory as far as there are names left. -/
def follow (tree : FileTree) : Place → List String → Except FileFault Place
  | place, [] => .ok place
  | place, name :: names =>
    match tree.get? place with
    | some .directory =>
      if name = ".." then tree.follow place.dropLast names
      else if maxNameLength < name.utf8ByteSize then .error .nameTooLong
      else
        match tree.get? (place ++ [name]) with
        | some _ => tree.follow (place ++ [name]) names
        | none => .error .notFound
    | some (.file _) => .error .notDirectory
    | none => .error .notFound

def startOf (working : Place) (path : String) : Place :=
  if FilePath.isRooted path then [] else working

/-- The place that a path leads to, where something lies. -/
def resolve (tree : FileTree) (working : Place) (path : String) : Except FileFault Place :=
  if path.isEmpty then .error .notFound
  else
    match tree.follow (startOf working path) (FilePath.namesOf path) with
    | .ok place =>
      if path.endsWith "/" && !tree.isDirectoryAt place then .error .notDirectory else .ok place
    | .error fault => .error fault

def pathExists (tree : FileTree) (working : Place) (path : String) : Bool :=
  (tree.resolve working path).toOption.isSome

def isDirectory (tree : FileTree) (working : Place) (path : String) : Bool :=
  match tree.resolve working path with
  | .ok place => tree.isDirectoryAt place
  | .error _ => false

/-- The path in full and without detours if something lies there, else in full only. -/
def fullPath (tree : FileTree) (working : Place) (path : String) : String :=
  match tree.resolve working path with
  | .ok place => FilePath.ofPlace place
  | .error _ =>
    if FilePath.isRooted path then path else FilePath.join (FilePath.ofPlace working) path

def readFile (tree : FileTree) (working : Place) (path : String) :
    Except FileFault (List UInt8) :=
  match tree.resolve working path with
  | .ok place =>
    match tree.get? place with
    | some (.file bytes) => .ok bytes
    | some .directory => .error .isDirectory
    | none => .error .notFound
  | .error fault => .error fault

/-- The place at which a new file with this path would lie: its directory is there. -/
def destination (tree : FileTree) (working : Place) (path : String) : Except FileFault Place :=
  match (FilePath.namesOf path).reverse with
  | [] => .error .isDirectory
  | name :: before =>
    match tree.follow (startOf working path) before.reverse with
    | .ok place =>
      if !tree.isDirectoryAt place then .error .notDirectory
      else if name = ".." then .error .isDirectory
      else if maxNameLength < name.utf8ByteSize then .error .nameTooLong
      else .ok (place ++ [name])
    | .error fault => .error fault

def writeFile (tree : FileTree) (working : Place) (path : String) (bytes : List UInt8) :
    Except FileFault FileTree :=
  match tree.destination working path with
  | .ok place =>
    if tree.isDirectoryAt place then .error .isDirectory else .ok (tree.put place (.file bytes))
  | .error fault => .error fault

/-- Gives a file another path, where it takes the place of the file that was there. -/
def moveFile (tree : FileTree) (working : Place) (source target : String) :
    Except FileFault FileTree :=
  match tree.resolve working source, tree.destination working target with
  | .ok old, .ok new =>
    if tree.isDirectoryAt new then .error .isDirectory
    else
      match tree.get? old with
      | some node => .ok ((tree.remove old).put new node)
      | none => .error .notFound
  | .error fault, _ => .error fault
  | _, .error fault => .error fault

/-- Removes the file that a path leads to, if there is one. -/
def discardFile (tree : FileTree) (working : Place) (path : String) : FileTree :=
  match tree.resolve working path with
  | .ok place => if tree.isDirectoryAt place then tree else tree.remove place
  | .error _ => tree

/-- Makes the directories that the names lead through, from a place that is one.  What is
made before a fault stays. -/
def makeBelow (tree : FileTree) : Place → List String → FileTree × Except FileFault Unit
  | _, [] => (tree, .ok ())
  | place, name :: names =>
    if name = ".." then tree.makeBelow place.dropLast names
    else if maxNameLength < name.utf8ByteSize then (tree, .error .nameTooLong)
    else
      match tree.get? (place ++ [name]) with
      | some .directory => tree.makeBelow (place ++ [name]) names
      | some (.file _) =>
        (tree, .error (if names.isEmpty then .alreadyExists else .notDirectory))
      | none => (tree.put (place ++ [name]) .directory).makeBelow (place ++ [name]) names

/-- Makes a directory and those that lead to it, as far as they are missing. -/
def makeDirectories (tree : FileTree) (working : Place) (path : String) :
    FileTree × Except FileFault Unit :=
  tree.makeBelow (startOf working path) (FilePath.namesOf path)

def removeDirectory (tree : FileTree) (working : Place) (path : String) :
    Except FileFault FileTree :=
  match tree.resolve working path with
  | .ok place =>
    if tree.isDirectoryAt place then .ok (tree.remove place) else .error .notDirectory
  | .error fault => .error fault

end FileTree

end Folio
