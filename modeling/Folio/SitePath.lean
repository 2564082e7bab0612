/-!
# Paths inside a site

A site path is a list of segments, relative to some root.  Reading a path folds it into
normal form: empty segments and `.` vanish, and `..` takes back the segment before it.
Only leading `..` remain.
-/

namespace Folio

/-- A relative path in normal form. -/
structure SitePath where
  segments : List String
  deriving DecidableEq, Repr

namespace SitePath

/-- Puts one more segment at the end of reversed segments, folding it in. -/
def fold (reversed : List String) (segment : String) : List String :=
  if segment = "" ∨ segment = "." then reversed
  else if segment = ".." then
    match reversed with
    | last :: rest => if last = ".." then segment :: reversed else rest
    | [] => [segment]
  else segment :: reversed

def ofSegments (segments : List String) : SitePath :=
  ⟨(segments.foldl fold []).reverse⟩

def pieces (isSeparator : Char → Bool) : List Char → List (List Char)
  | [] => [[]]
  | c :: cs =>
    if isSeparator c then [] :: pieces isSeparator cs
    else
      match pieces isSeparator cs with
      | piece :: more => (c :: piece) :: more
      | [] => [[c]]

def isSeparator (c : Char) : Bool :=
  c == '/' || c == '\\'

def parse (text : String) : SitePath :=
  ofSegments ((pieces isSeparator text.toList).map String.ofList)

/-- Reads a path of the file tree, which only slashes separate. -/
def ofFilePath (text : String) : SitePath :=
  ofSegments ((pieces (· == '/') text.toList).map String.ofList)

def text (p : SitePath) : String :=
  String.intercalate "/" p.segments

instance : ToString SitePath := ⟨text⟩

def root : SitePath := ⟨[]⟩

def name? (p : SitePath) : Option String :=
  p.segments.getLast?

/-- A name without its last `.` and what follows.  A name whose only dot comes first
keeps it. -/
def stemOf (name : String) : String :=
  let reversed := name.toList.reverse
  match reversed.dropWhile (· != '.') with
  | _ :: before@(_ :: _) => String.ofList before.reverse
  | _ => name

def stem? (p : SitePath) : Option String :=
  p.name?.map stemOf

def directory (p : SitePath) : SitePath :=
  ⟨p.segments.dropLast⟩

/-- The path whose last segment has this extension in place of its own. -/
def withExtension (p : SitePath) (extension : String) : SitePath :=
  match p.segments.getLast? with
  | some name => ⟨p.segments.dropLast ++ [stemOf name ++ "." ++ extension]⟩
  | none => p

def join (p q : SitePath) : SitePath :=
  ofSegments (p.segments ++ q.segments)

/-- What follows the longest common beginning of two lists. -/
def dropCommon : List String → List String → List String × List String
  | a :: as, b :: bs => if a = b then dropCommon as bs else (a :: as, b :: bs)
  | as, bs => (as, bs)

/-- The way from the directory that holds `source` to `target`: up out of what they do not
share, then down.  The directory itself is `.`. -/
def relative (source target : SitePath) : String :=
  let (up, down) := dropCommon source.directory.segments target.segments
  match up.map (fun _ => "..") ++ down with
  | [] => "."
  | parts => String.intercalate "/" parts

/-- The place of the path below a directory of the file tree. -/
def under (p : SitePath) (directory : String) : String :=
  p.segments.foldl
    (fun place segment =>
      if place.isEmpty || place.endsWith "/" then place ++ segment else place ++ "/" ++ segment)
    directory

def compare (p q : SitePath) : Ordering :=
  go p.segments q.segments
where
  /-- The order of two lists of segments. -/
  go : List String → List String → Ordering
    | [], [] => .eq
    | [], _ :: _ => .lt
    | _ :: _, [] => .gt
    | a :: as, b :: bs => (Ord.compare a b).then (go as bs)

end SitePath

end Folio
