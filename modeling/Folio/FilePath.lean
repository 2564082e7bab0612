import Folio.SitePath

/-!
# Paths of the file system

A path is kept as the text that it was written as, for messages show it so.  Two texts
are the same path if they have the same parts: slashes may be doubled or trail, and `.`
stands for nothing except at the front.  `..` stays, since what it means depends on what
lies there.
-/

namespace Folio.FilePath

open SitePath (pieces stemOf)

/-- What a path says: whether it begins at the top of the file system, and the names on
the way. -/
structure Parts where
  rooted : Bool
  names : List String
  deriving DecidableEq, Repr, Inhabited

def isRooted (path : String) : Bool :=
  path.startsWith "/"

def namesOf (path : String) : List String :=
  ((pieces (· == '/') path.toList).map String.ofList).filter fun name => name != "" && name != "."

def parts (path : String) : Parts :=
  let names := namesOf path
  match (pieces (· == '/') path.toList).map String.ofList with
  | "." :: _ => ⟨false, "." :: names⟩
  | _ => ⟨isRooted path, names⟩

/-- The path as seen from another, which it replaces if it begins at the top. -/
def join (base path : String) : String :=
  if isRooted path then path
  else if base.isEmpty || base.endsWith "/" then base ++ path
  else base ++ "/" ++ path

def ofPlace (place : List String) : String :=
  "/" ++ String.intercalate "/" place

def isWithin (path base : String) : Bool :=
  (parts path).rooted == (parts base).rooted && (parts base).names.isPrefixOf (parts path).names

def namesBelow? (path base : String) : Option (List String) :=
  if isWithin path base then some ((parts path).names.drop (parts base).names.length) else none

def fileName? (path : String) : Option String :=
  match (parts path).names.getLast? with
  | some name => if name = ".." ∨ name = "." then none else some name
  | none => none

def directory (path : String) : String :=
  let reversed := path.toList.reverse.dropWhile (· == '/')
  let before := (reversed.dropWhile (· != '/'))
  match before.dropWhile (· == '/') with
  | [] => if before.isEmpty then "" else "/"
  | rest => String.ofList rest.reverse

/-- What follows the last dot of a name, unless the name begins with that dot. -/
def extensionOf? (name : String) : Option String :=
  let stem := stemOf name
  if stem = name then none else some (String.ofList (name.toList.drop (stem.length + 1)))

def extension? (path : String) : Option String :=
  (fileName? path).bind extensionOf?

end Folio.FilePath
