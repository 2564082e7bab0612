import Folio.Expr.Parser
import Folio.FileTree
import Folio.Settings.Basic

/-!
# When settings are valid

A site can be built only with settings that name directories which are there, an offset
that is one, and metadata that documents can use.  Of several faults the first one counts,
in this order.
-/

namespace Folio.Settings

/-- The fault of the content directories: there are none, or one of them is no directory. -/
def contentFault? (s : Settings) (tree : FileTree) (working : Place) : Option SettingsFault :=
  if s.build.content.isEmpty then some .noContent
  else
    (s.build.content.find? fun path => !tree.isDirectory working path).map
      SettingsFault.contentNotDirectory

def templatesFault? (s : Settings) (tree : FileTree) (working : Place) : Option SettingsFault :=
  if tree.isDirectory working s.build.templates then none
  else some (.templatesNotDirectory s.build.templates)

def timezoneFault? (s : Settings) : Option SettingsFault :=
  if s.offset?.isSome then none else some (.timezone s.site.timezone)

/-- The fault of one name of the metadata: documents cannot write it, or it stands for
nothing that they can use. -/
def metadataFault? : String × Toml.Value → Option SettingsFault
  | (name, v) =>
    if !isIdentifier name.toList then some (.metadataName name)
    else if v.meaning?.isNone then some (.metadataTable name)
    else none

def fault? (s : Settings) (tree : FileTree) (working : Place) : Option SettingsFault :=
  (s.contentFault? tree working).or <| (s.templatesFault? tree working).or <|
    s.timezoneFault?.or (s.metadata.findSome? metadataFault?)

def validate (s : Settings) (tree : FileTree) (working : Place) : Except Failure Settings :=
  match s.fault? tree working with
  | none => .ok s
  | some fault => .error (.of (.settings fault))

end Folio.Settings
