import Folio.Build.Basic
import Folio.Directories

/-!
# Tasks at work together

All tasks of a build are begun at once.  Each of them waits for its source, for its
directory, for its file to be written and for it to be moved, and while it waits the others
go on.  What they do to the files is one step at a time, but any task may take the next
one.

A task that fails cancels the work of all others when it is joined, and so may somebody
from outside at any time.  Tasks see that only where they look for it.
-/

namespace Folio

open Calendar (Timestamp)

inductive TaskStage where
  | waiting
  /-- Its source has been read. -/
  | opened (bytes : List UInt8)
  /-- The bytes of its file are known. -/
  | made (bytes : List UInt8)
  /-- It has called for its directory. -/
  | asking (call : Nat) (bytes : List UInt8)
  /-- Its directory is there, as far as it can be made. -/
  | ready (bytes : List UInt8)
  /-- Its file lies under its other name. -/
  | written
  /-- Its file cannot take its place. -/
  | refused (failure : Failure)
  | ended (result : Except Failure Unit)
  /-- The build has seen how it ended. -/
  | joined (result : Except Failure Unit)

/-- All tasks of a build at work. -/
structure Workshop where
  tree : FileTree
  directories : Directories
  /-- The attempts to create a directory that have been carried out. -/
  carriedOut : List Nat
  /-- What the tasks are at, in their order. -/
  stages : List TaskStage
  generated : List (FileKind × SitePath)
  tally : Tally

inductive BuildEvent where
  /-- The task with this number goes on, if what it waits for is there. -/
  | task (number : Nat) (cancelFirst : Bool)
  /-- An attempt to create a directory is carried out. -/
  | create (attempt : Nat)
  /-- The build sees how the task with this number ended. -/
  | join (number : Nat)
  | interrupt
  deriving DecidableEq, Repr

def buildToken : String := "build"

namespace Workshop

def start (tree : FileTree) (tasks : List BuildTask) : Workshop :=
  ⟨tree, .empty, [], tasks.map fun _ => .waiting, [], .empty⟩

def isCanceled (w : Workshop) : Bool :=
  w.directories.isCanceled buildToken

def cancel (w : Workshop) : Workshop :=
  { w with directories := w.directories.step (.cancel buildToken) }

def setStage (w : Workshop) (number : Nat) (stage : TaskStage) : Workshop :=
  { w with stages := w.stages.set number stage }

def fail (w : Workshop) (number : Nat) (t : BuildTask) (failure : Failure) : Workshop :=
  w.setStage number (.ended (.error (failure.within (.building t.source.physical))))

def ask (w : Workshop) (number : Nat) (target : String) (bytes : List UInt8) : Workshop :=
  { w with directories := w.directories.step (.call (FilePath.directory target) buildToken) }.setStage
    number (.asking w.directories.calls.length bytes)

def await (w : Workshop) (number : Nat) (t : BuildTask) (call : Nat) (bytes : List UInt8)
    (cancelFirst : Bool) : Workshop :=
  let w := { w with directories := w.directories.step (.poll call cancelFirst) }
  match w.directories.calls[call]?.map DirectoryCall.phase with
  | some (.ended .done) => w.setStage number (.ready bytes)
  | some (.ended _) => w.fail number t (.ofFault .canceled)
  | _ => w

/-- A task writes its file under its other name. -/
def write (w : Workshop) (number : Nat) (target : String) (bytes : List UInt8) : Workshop :=
  let temporary := temporaryPath target
  match w.tree.writeFile [] temporary bytes with
  | .ok tree => { w with tree }.setStage number .written
  | .error fault => w.setStage number (.refused (.ofFault (.file temporary fault)))

def move (w : Workshop) (number : Nat) (t : BuildTask) (target : String) : Workshop :=
  if w.isCanceled then w.setStage number (.refused (.ofFault .canceled))
  else
    match w.tree.moveFile [] (temporaryPath target) target with
    | .ok tree =>
      { w with tree, generated := w.generated ++ [(t.kind, t.source.relative)] }.setStage number
        (.ended (.ok ()))
    | .error fault => w.setStage number (.refused (.ofFault (.file target fault)))

/-- A task that is at this stage goes on. -/
def advance (p : Plan) (w : Workshop) (number : Nat) (t : BuildTask) (cancelFirst : Bool) :
    TaskStage → Workshop
  | .waiting =>
    match w.tree.readFile [] t.source.physical with
    | .ok bytes => w.setStage number (.opened bytes)
    | .error fault => w.fail number t (.ofFault (.file t.source.physical fault))
  | .opened source =>
    match t.make p (Reducer.ofTools Builtin.toolbox w.isCanceled) source with
    | .ok bytes => w.setStage number (.made bytes)
    | .error failure => w.fail number t failure
  | .made bytes => w.ask number (t.target p.output) bytes
  | .asking call bytes => w.await number t call bytes cancelFirst
  | .ready bytes => w.write number (t.target p.output) bytes
  | .written => w.move number t (t.target p.output)
  | .refused failure =>
    { w with tree := w.tree.discardFile [] (temporaryPath (t.target p.output)) }.fail number t failure
  | .ended _ => w
  | .joined _ => w

/-- Carries out an attempt to create a directory, which comes back if its call still waits
for it.  Nobody asks whether it succeeded. -/
def create (w : Workshop) (attempt : Nat) : Workshop :=
  match w.directories.attempts[attempt]? with
  | none => w
  | some a =>
    if w.carriedOut.contains attempt then w
    else
      { w with
        tree := (w.tree.makeDirectories [] a.path).1
        carriedOut := attempt :: w.carriedOut
        directories :=
          if a.state = .running then w.directories.step (.creationReturns a.path)
          else w.directories }

/-- Takes in how a task ended; a failure cancels all work. -/
def join (w : Workshop) (number : Nat) (result : Except Failure Unit) : Workshop :=
  let w := { w with tally := w.tally.add result }.setStage number (.joined result)
  match result with
  | .ok () => w
  | .error _ => w.cancel

def step (p : Plan) (tasks : List BuildTask) (w : Workshop) : BuildEvent → Workshop
  | .task number cancelFirst =>
    match tasks[number]?, w.stages[number]? with
    | some t, some stage => w.advance p number t cancelFirst stage
    | _, _ => w
  | .create attempt => w.create attempt
  | .join number =>
    match w.stages[number]? with
    | some (.ended result) => w.join number result
    | _ => w
  | .interrupt => w.cancel

def run (p : Plan) (tasks : List BuildTask) (w : Workshop) (events : List BuildEvent) : Workshop :=
  events.foldl (step p tasks) w

def isFinished (w : Workshop) : Bool :=
  w.stages.all fun
    | .joined _ => true
    | _ => false

end Workshop

/-- Does all tasks together, as the events come; they must be enough for all tasks to end. -/
def runTasksBy (events : List BuildEvent) (p : Plan) (tree : FileTree) (tasks : List BuildTask) :
    Option TaskProgress :=
  let w := (Workshop.start tree tasks).run p tasks events
  if w.isFinished then some ⟨w.tree, w.generated, w.tally⟩ else none

/-- Builds a site with all its tasks done together. -/
def buildBy (events : List BuildEvent) (tree : FileTree) (settings : Settings) (now : Timestamp)
    (canceled : Bool) : Option BuildOutcome :=
  buildWith (runTasksBy events) tree settings now canceled

end Folio
