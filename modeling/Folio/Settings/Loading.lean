import Folio.Command
import Folio.FileTree
import Folio.Settings.Basic

/-!
# Settings of an invocation

The settings that count are those of the settings file, if there is one, with what the
command line says put over them.  At the end all paths are full paths, so that what they
mean no longer hangs on the directory in which the program works.
-/

namespace Folio.Settings

open Command (Invocation)

def read (tree : FileTree) (working : Place) (path : String) : Except Failure Settings :=
  match tree.readFile working path with
  | .error fault => .error (.of (.settings (.unreadable path fault)))
  | .ok bytes =>
    match Text.decode? bytes with
    | none => .error (.of (.settings (.unreadable path .invalidText)))
    | some text =>
      match Settings.ofText text with
      | .ok settings => .ok settings
      | .error fault => .error (.of (.settings fault))

/-- Puts over the settings what a command says about a build. -/
def override (s : Settings) (clean : Bool) (output : Option String) (content : List String) :
    Settings :=
  { s with
    build :=
      { s.build with
        clean := s.build.clean || clean
        output := output.getD s.build.output
        content := if content.isEmpty then s.build.content else content } }

/-- Sees all paths from a directory and makes them full. -/
def atRoot (s : Settings) (tree : FileTree) (working : Place) (root settingsName : String) :
    Settings :=
  let root := tree.fullPath working root
  let full (path : String) := tree.fullPath working (FilePath.join root path)
  { s with
    path := full settingsName
    build :=
      { s.build with
        root := some root
        content := s.build.content.map full
        output := full s.build.output
        templates := full s.build.templates } }

def resolve (s : Settings) (tree : FileTree) (working : Place) (i : Invocation) : Settings :=
  let root := i.root.getD s.root
  match i.request with
  | .create (some name) => s.atRoot tree working (FilePath.join root name) i.settings
  | .create none => s.atRoot tree working root i.settings
  | .build clean output content =>
    (s.override clean output content).atRoot tree working root i.settings

/-- The settings for an invocation.  A new site is made without regard to a settings file
that is there. -/
def load (tree : FileTree) (working : Place) (i : Invocation) : Except Failure Settings := do
  let path := FilePath.join (i.root.getD defaultRoot) i.settings
  let settings ←
    if tree.pathExists working path && !i.isCreate then read tree working path
    else .ok Settings.default
  .ok (settings.resolve tree working i)

end Folio.Settings
