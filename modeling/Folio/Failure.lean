import Folio.Fault
import Folio.SitePath

/-!
# Failures

A build can fail in more ways than a document can be at fault: the settings may be no
good, directories may be missing, files may be in the way.  A failure is a cause, and what
the program was about when it met the cause.  Its wording tells all of that, from the
outside in.
-/

namespace Folio

inductive SettingsFault where
  | unreadable (path : String) (fault : FileFault)
  /-- The text is no TOML, or not what settings look like. -/
  | malformed
  | noContent
  | contentNotDirectory (path : String)
  | templatesNotDirectory (path : String)
  | timezone (text : String)
  | metadataName (name : String)
  /-- A table, or a list with a table in it. -/
  | metadataTable (name : String)
  deriving DecidableEq, Repr

def invalidSettings (what : String) : String :=
  "Config validation error: " ++ what

/-- The wording of a fault of the settings, without the cause that the file system gave. -/
def SettingsFault.message : SettingsFault → String
  | .unreadable path _ => "IO error when reading `" ++ path ++ "`"
  | .malformed => "Config file parsing error"
  | .noContent => invalidSettings "[build.content] must name at least one directory"
  | .contentNotDirectory path =>
    invalidSettings ("[build.content] `" ++ path ++ "` is not a directory")
  | .templatesNotDirectory path =>
    invalidSettings ("[build.templates] `" ++ path ++ "` is not a directory")
  | .timezone text =>
    invalidSettings ("[base.timezone] `" ++ text ++ "` must be an offset like +09:00")
  | .metadataName name => invalidSettings ("[metadata] `" ++ name ++ "` is not a valid name")
  | .metadataTable name => invalidSettings ("[metadata." ++ name ++ "] tables are not supported")

/-- What makes the program fail. -/
inductive Cause where
  | fault (fault : Fault)
  | settings (fault : SettingsFault)
  /-- The file system refuses. -/
  | file (fault : FileFault)
  /-- The file system refuses while a directory is searched. -/
  | search (path : String) (fault : FileFault)
  | contentInOutput (path : String)
  /-- Two content directories hold a file at the same path. -/
  | sameSource (path : SitePath)
  | layoutMissing (layout templates : String)
  | settingsMissing
  | settingsExist
  /-- A new site is to be made where something lies. -/
  | notEmpty (path : String)
  | workingDirectoryNotEmpty
  | alreadyThere (path : String)
  | buildFailed
  /-- An evaluation does not end. -/
  | endless
  deriving DecidableEq, Repr

def Cause.messages : Cause → List String
  | .fault (.file path reason) => [(Fault.file path reason).message, reason.message]
  | .fault reason => [reason.message]
  | .settings (.unreadable path reason) =>
    [(SettingsFault.unreadable path reason).message, reason.message]
  | .settings reason => [reason.message]
  | .file reason => [reason.message]
  | .search path reason =>
    ["IO error for operation on " ++ path ++ ": " ++ reason.message, reason.message]
  | .contentInOutput path => ["content root `" ++ path ++ "` lies inside the output directory"]
  | .sameSource path => ["`" ++ path.text ++ "` exists in more than one content root"]
  | .layoutMissing layout templates => ["layout `" ++ layout ++ "` not found in " ++ templates]
  | .settingsMissing => ["Config file not found."]
  | .settingsExist =>
    ["Config file already exists. Remove it manually or init in a different path."]
  | .notEmpty path => ["Path `" ++ path ++ "` is not empty."]
  | .workingDirectoryNotEmpty =>
    ["Current directory is not empty. Use `marksite init <SITE_NAME>` to create in a " ++
      "subdirectory."]
  | .alreadyThere path =>
    ["Path `" ++ path ++ "` already exists. Try `marksite init <SITE_NAME>` instead."]
  | .buildFailed => ["Build failed"]
  | .endless => ["evaluation does not end"]

inductive Activity where
  | cleaning (path : String)
  | searching (path : String)
  | readingHeader (path : String)
  | readingLayout (path : String)
  | parsingLayout (path : String)
  | building (path : String)
  | creating (path : String)
  | writing (path : String)
  deriving DecidableEq, Repr

def Activity.message : Activity → String
  | .cleaning path => "failed to clean " ++ path
  | .searching path => "failed to walk " ++ path
  | .readingHeader path => "failed to read header of " ++ path
  | .readingLayout path => "failed to read layout " ++ path
  | .parsingLayout path => "failed to parse layout " ++ path
  | .building path => "failed to build " ++ path
  | .creating path => "Failed to create " ++ path
  | .writing path => "Failed to write " ++ path

/-- A cause and what the program was about, outermost first. -/
structure Failure where
  during : List Activity
  cause : Cause
  deriving DecidableEq, Repr

namespace Failure

def of (cause : Cause) : Failure :=
  ⟨[], cause⟩

def within (activity : Activity) (failure : Failure) : Failure :=
  { failure with during := activity :: failure.during }

def messages (failure : Failure) : List String :=
  failure.during.map Activity.message ++ failure.cause.messages

def message (failure : Failure) : String :=
  String.intercalate ": " failure.messages

def isCanceled (failure : Failure) : Bool :=
  failure.cause == .fault .canceled

/-- The causes below the outermost wording, one to a line; several are numbered. -/
def causeLines : List String → List String
  | [] => []
  | [only] => ["    " ++ only]
  | several => several.zipIdx.map fun (line, i) => "    " ++ toString i ++ ": " ++ line

/-- What is written when the program ends with the failure. -/
def report (failure : Failure) : String :=
  match failure.messages with
  | [] => "Error: \n"
  | first :: causes =>
    let tail := causeLines causes
    "Error: " ++ first ++ "\n" ++
      if tail.isEmpty then "" else "\nCaused by:\n" ++ String.intercalate "\n" tail ++ "\n"

end Failure

end Folio
