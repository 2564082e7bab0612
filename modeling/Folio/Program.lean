import Folio.Build.Basic
import Folio.Settings.Validity
import Folio.Starter

/-!
# The program

The whole program as a function: from a file tree, a working directory, the time and a
command line to what is written to the console, what the file tree has become, and the
exit code.
-/

namespace Folio.Program

open Calendar (Timestamp)
open Command (Invocation Refusal)

def versionText : String := "marksite 0.1.0"

def usageText : String :=
  String.intercalate "\n"
    [ "A static site generator for markdown trees",
      "",
      "Usage: marksite [OPTIONS] <COMMAND>",
      "",
      "Commands:",
      "  init [NAME]                  Make a new site",
      "  build [OPTIONS] [CONTENT]..  Build the site",
      "",
      "Options:",
      "  -r, --root <ROOT>      Site directory",
      "  -C, --config <CONFIG>  Settings file [default: marksite.toml]",
      "  -h, --help             Print help",
      "  -V, --version          Print version",
      "",
      "Options of build:",
      "      --clean            Remove the output directory first",
      "  -o, --output <OUTPUT>  Output directory" ]

structure Outcome where
  code : UInt32
  /-- What is written to the console. -/
  output : String
  /-- What is written to the console about failures. -/
  errors : String
  tree : FileTree

def failed (tree : FileTree) (failure : Failure) : Outcome :=
  ⟨1, "", failure.report, tree⟩

/-! ## Command lines that ask for nothing -/

def refusalText : Refusal → String
  | .help | .nothingAsked => usageText
  | .version => versionText
  | .commandMissing => "error: a command is missing"
  | .unknownCommand => "error: unrecognized command"
  | .unknownArgument => "error: unexpected argument"
  | .valueMissing => "error: a value is required"
  | .valueUnwanted => "error: unexpected value"
  | .repeated => "error: an argument cannot be used multiple times"

/-- Help and version are asked for; everything else is a mistake. -/
def refuse (tree : FileTree) (refusal : Refusal) : Outcome :=
  let text := refusalText refusal ++ "\n"
  match refusal with
  | .help | .version => ⟨0, text, "", tree⟩
  | _ => ⟨2, "", text, tree⟩

/-! ## Commands -/

/-- The settings for an invocation, if it can be carried out with them: a new site has no
settings file yet, and one that is built has a valid one. -/
def prepare (tree : FileTree) (working : Place) (i : Invocation) : Except Failure Settings := do
  let settings ← Settings.load tree working i
  match i.isCreate, tree.pathExists working settings.path with
  | true, true => .error (.of .settingsExist)
  | true, false => .ok settings
  | false, false => .error (.of .settingsMissing)
  | false, true => settings.validate tree working

def create (tree : FileTree) (settings : Settings) (named : Bool) : Outcome :=
  match (Starter.create settings named).perform tree with
  | (.ok (), tree) => ⟨0, "", "", tree⟩
  | (.error failure, tree) => failed tree failure

def generatedMessage : FileKind × SitePath → Console.Message
  | (kind, path) => ⟨kind.name, path.text⟩

/-- What a build says at its end.  Tasks are done one at a time. -/
def resultMessage : Except Failure Nat → Console.Message
  | .ok count =>
    ⟨"build", toString count ++ " files, max concurrency " ++ toString (min count 1)⟩
  | .error failure => ⟨"error", failure.message⟩

def messagesOf (outcome : BuildOutcome) : List Console.Message :=
  outcome.messages ++ outcome.generated.map generatedMessage ++ [resultMessage outcome.result]

def buildSite (tree : FileTree) (settings : Settings) (now : Timestamp) (colour : Bool) :
    Outcome :=
  let outcome := build tree settings now false
  let output :=
    String.join ((messagesOf outcome).map (Console.Message.render Console.defaultWidth colour))
  match outcome.result with
  | .ok _ => ⟨0, output, "", outcome.tree⟩
  | .error _ => ⟨1, output, (Failure.of .buildFailed).report, outcome.tree⟩

def run (tree : FileTree) (working : Place) (now : Timestamp) (colour : Bool)
    (arguments : List String) : Outcome :=
  match Command.parse arguments with
  | .error refusal => refuse tree refusal
  | .ok i =>
    match prepare tree working i with
    | .error failure => failed tree failure
    | .ok settings =>
      match i.request with
      | .create name => create tree settings name.isSome
      | .build .. => buildSite tree settings now colour

end Folio.Program
