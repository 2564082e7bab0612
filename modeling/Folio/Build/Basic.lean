import Folio.Build.Tally
import Folio.Build.Task
import Folio.Console

/-!
# Building a site

A build cleans the output directory if the settings say so, finds out what is to be done,
and does the tasks, here one after the other.  The files that are made do not depend on the
order of the tasks unless two tasks make the same file.
-/

namespace Folio

open Calendar (Timestamp)

/-- What a file of the site was made from. -/
inductive FileKind where
  | content
  | asset
  deriving DecidableEq, Repr, Inhabited

def FileKind.name : FileKind → String
  | .content => "content"
  | .asset => "assets"

def BuildTask.kind : BuildTask → FileKind
  | .render .. => .content
  | .copy _ => .asset

structure BuildOutcome where
  tree : FileTree
  /-- What it had to say on the way. -/
  messages : List Console.Message
  /-- The sources of the files that were made, in order. -/
  generated : List (FileKind × SitePath)
  /-- The number of files that were made, or why the build failed. -/
  result : Except Failure Nat

/-- A build that failed before its first task. -/
def BuildOutcome.failed (tree : FileTree) (messages : List Console.Message) (failure : Failure) :
    BuildOutcome :=
  ⟨tree, messages, [], .error failure⟩

/-- Removes the output directory if it is there and the settings say so. -/
def cleanOutput (tree : FileTree) (settings : Settings) : Except Failure FileTree :=
  let output := settings.build.output
  if settings.build.clean && tree.pathExists [] output then
    match tree.removeDirectory [] output with
    | .ok cleaned => .ok cleaned
    | .error fault => .error ((Failure.of (.file fault)).within (.cleaning output))
  else .ok tree

def Survey.message (s : Survey) : Console.Message :=
  ⟨"metadata", "found " ++ toString s.documentCount ++ " documents, " ++
    toString s.published.length ++ " published"⟩

structure TaskProgress where
  tree : FileTree
  generated : List (FileKind × SitePath)
  tally : Tally

def TaskProgress.next (p : Plan) (before : TaskProgress) (t : BuildTask) : TaskProgress :=
  let r := Reducer.ofTools Builtin.toolbox before.tally.isCanceled
  let (result, tree) := (t.run p r).perform before.tree
  { tree
    generated :=
      match result with
      | .ok () => before.generated ++ [(t.kind, t.source.relative)]
      | .error _ => before.generated
    tally := before.tally.add result }

def runTasks (p : Plan) (tree : FileTree) (tasks : List BuildTask) : TaskProgress :=
  tasks.foldl (TaskProgress.next p) ⟨tree, [], .empty⟩

/-- Builds a site from a clean start, with its tasks done by `work`. -/
def buildFromWith {m : Type → Type} [Monad m] (work : Plan → FileTree → List BuildTask → m TaskProgress)
    (tree : FileTree) (settings : Settings) (now : Timestamp) : m BuildOutcome :=
  let r := Reducer.ofTools Builtin.toolbox false
  let scope := settings.siteScope now
  match survey tree settings r scope with
  | .error failure => pure (.failed tree [] failure)
  | .ok found =>
    match plan tree settings r scope found.published with
    | .error failure => pure (.failed tree [found.message] failure)
    | .ok p => do
      let done ← work p tree found.tasks
      pure ⟨done.tree, [found.message], done.generated, done.tally.result⟩

/-- Builds a site at the given time, with its tasks done by `work`.  A build that is canceled
before it begins does nothing. -/
def buildWith {m : Type → Type} [Monad m] (work : Plan → FileTree → List BuildTask → m TaskProgress)
    (tree : FileTree) (settings : Settings) (now : Timestamp) (canceled : Bool) : m BuildOutcome :=
  if canceled then pure (.failed tree [] (.ofFault .canceled))
  else
    match cleanOutput tree settings with
    | .error failure => pure (.failed tree [] failure)
    | .ok cleaned => buildFromWith work cleaned settings now

/-- Builds a site from a clean start, one task after the other. -/
def buildFrom (tree : FileTree) (settings : Settings) (now : Timestamp) : BuildOutcome :=
  Id.run (buildFromWith (fun p tree tasks => pure (runTasks p tree tasks)) tree settings now)

/-- Builds a site, one task after the other. -/
def build (tree : FileTree) (settings : Settings) (now : Timestamp) (canceled : Bool) :
    BuildOutcome :=
  Id.run (buildWith (fun p tree tasks => pure (runTasks p tree tasks)) tree settings now canceled)

end Folio
