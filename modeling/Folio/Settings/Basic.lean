import Folio.Calendar.Reading
import Folio.Expr.Basic
import Folio.Failure
import Folio.Text.Letter
import Folio.Toml.Parser

/-!
# Settings of a site

What a site says about itself in its settings file: a section on the site as a whole, one
on the directories of a build, and one of names that every document can use.  Everything
has a default, and a section says nothing that it does not know.
-/

namespace Folio

open Calendar (readOffset? readTimestamp?)

/-- What is said about the site as a whole. -/
structure SiteSection where
  title : String
  author : String
  lang : String
  /-- The offset of the site's timezone as it is written. -/
  timezone : String
  deriving DecidableEq, Repr

/-- What is said about the directories of a build. -/
structure BuildSection where
  /-- The directory of the site, from which the others are seen. -/
  root : Option String
  content : List String
  output : String
  templates : String
  /-- The output directory is removed before a build. -/
  clean : Bool
  deriving DecidableEq, Repr

structure Settings where
  /-- Where the settings file lies. -/
  path : String
  site : SiteSection
  build : BuildSection
  metadata : Toml.Table

def SiteSection.default : SiteSection :=
  ⟨"", "<YOUR_NAME>", "en-US", "+00:00"⟩

def BuildSection.default : BuildSection :=
  ⟨none, ["contents"], "docs", "templates", false⟩

def Settings.default : Settings :=
  ⟨"", .default, .default, []⟩

/-! ## Reading -/

/-- The values of a section under their names, all of which it must know.  A section can
also be written as a list of its values, in order. -/
def sectionFields? (names : List String) : Option Toml.Value → Option Toml.Table
  | none => some []
  | some (.table entries) => if entries.all fun e => names.contains e.1 then some entries else none
  | some (.array items) => some (names.zip items)
  | some _ => none

def stringField? (name otherwise : String) (fields : Toml.Table) : Option String :=
  match fields.lookup name with
  | none => some otherwise
  | some (.string s) => some s
  | some _ => none

def booleanField? (name : String) (otherwise : Bool) (fields : Toml.Table) : Option Bool :=
  match fields.lookup name with
  | none => some otherwise
  | some (.boolean b) => some b
  | some _ => none

def allStrings? : List Toml.Value → Option (List String)
  | [] => some []
  | .string s :: more => (allStrings? more).map (s :: ·)
  | _ :: _ => none

def stringsField? (name : String) (otherwise : List String) (fields : Toml.Table) :
    Option (List String) :=
  match fields.lookup name with
  | none => some otherwise
  | some (.array items) => allStrings? items
  | some _ => none

def SiteSection.ofValue? (v : Option Toml.Value) : Option SiteSection := do
  let fields ← sectionFields? ["title", "author", "lang", "timezone"] v
  let otherwise := SiteSection.default
  let title ← stringField? "title" otherwise.title fields
  let author ← stringField? "author" otherwise.author fields
  let lang ← stringField? "lang" otherwise.lang fields
  let timezone ← stringField? "timezone" otherwise.timezone fields
  some ⟨title, author, lang, timezone⟩

def BuildSection.ofValue? (v : Option Toml.Value) : Option BuildSection := do
  let fields ← sectionFields? ["root", "content", "output", "templates", "clean"] v
  let otherwise := BuildSection.default
  let root ← match fields.lookup "root" with
    | none => some none
    | some (.string s) => some (some s)
    | some _ => none
  let content ← stringsField? "content" otherwise.content fields
  let output ← stringField? "output" otherwise.output fields
  let templates ← stringField? "templates" otherwise.templates fields
  let clean ← booleanField? "clean" otherwise.clean fields
  some ⟨root, content, output, templates, clean⟩

def metadataOf? : Option Toml.Value → Option Toml.Table
  | none => some []
  | some (.table entries) => some entries
  | some _ => none

def Settings.ofTable? (table : Toml.Table) : Option Settings := do
  let fields ← sectionFields? ["base", "build", "metadata"] (some (.table table))
  let site ← SiteSection.ofValue? (fields.lookup "base")
  let build ← BuildSection.ofValue? (fields.lookup "build")
  let metadata ← metadataOf? (fields.lookup "metadata")
  some ⟨"", site, build, metadata⟩

def Settings.ofText (text : String) : Except SettingsFault Settings :=
  match (Toml.parse text).bind Settings.ofTable? with
  | some settings => .ok settings
  | none => .error .malformed

/-! ## What the settings mean -/

/-- The offset of the timezone in seconds, if it is one. -/
def Settings.offset? (s : Settings) : Option Int :=
  readOffset? s.site.timezone.toList

/-- The offset of the timezone in seconds; without one, universal time counts. -/
def Settings.offset (s : Settings) : Int :=
  s.offset?.getD 0

def Settings.defaultRoot : String := "./"

def Settings.root (s : Settings) : String :=
  s.build.root.getD Settings.defaultRoot

mutual

/-- The value that a value of the settings stands for in documents.  A table stands for
none. -/
def Toml.Value.meaning? : Toml.Value → Option Folio.Value
  | .string s => some (.str s)
  | .integer i => some (.int i)
  | .float x => some (.float x)
  | .boolean b => some (.bool b)
  | .moment m =>
    match readTimestamp? m.text with
    | some t => some (.date t)
    | none => some (.str (String.ofList m.text))
  | .array items => (Toml.meanings? items).map .list
  | .table _ => none
termination_by structural x => x

/-- The values that values of the settings stand for. -/
def Toml.meanings? : List Toml.Value → Option (List Folio.Value)
  | [] => some []
  | v :: vs =>
    match v.meaning?, Toml.meanings? vs with
    | some first, some rest => some (first :: rest)
    | _, _ => none
termination_by structural x => x

end

def Settings.metadataBindings (s : Settings) : Fields :=
  s.metadata.filterMap fun (name, v) => v.meaning?.map fun meant => (name, .value meant)

end Folio
