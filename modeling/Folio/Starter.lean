import Folio.FileWork
import Folio.Settings.Loading

/-!
# A new site

A new site has a settings file that says what holds anyway, directories for content and
templates, one layout and one document.  It is enough for a first build.  Nothing that lies
there already is touched.
-/

namespace Folio.Starter

/-! ## What a new site holds -/

def textOfLines (lines : List String) : String :=
  String.join (lines.map (· ++ "\n"))

def settingsText : String :=
  textOfLines
    [ "[base]",
      "title = \"\"",
      "author = \"<YOUR_NAME>\"",
      "lang = \"en-US\"",
      "timezone = \"+00:00\"",
      "",
      "[build]",
      "content = [\"contents\"]",
      "output = \"docs\"",
      "templates = \"templates\"",
      "clean = false",
      "",
      "[metadata]" ]

def layoutText : String :=
  textOfLines
    [ "<!DOCTYPE html>",
      "<html lang=\"\x7blang\x7d\">",
      "<head>",
      "<meta charset=\"utf-8\">",
      "<title>\x7btitle\x7d | \x7bsiteTitle\x7d</title>",
      "</head>",
      "<body>",
      "<nav><a href=\"\x7brelative 'index.html'\x7d\">\x7bsiteTitle\x7d</a> / " ++
        "\x7bforeach category.breadcrumbs crumb\x7d\x7bcrumb\x7d / \x7bend\x7d</nav>",
      "<article>",
      "<h1>\x7btitle\x7d</h1>",
      "\x7bcontentBody\x7d",
      "</article>",
      "<footer>\x7bauthor\x7d, \x7bformat generated '%Y-%m-%d'\x7d</footer>",
      "</body>",
      "</html>" ]

def documentText : String :=
  textOfLines
    [ "---",
      "title: Hello",
      "date: 2024-01-01",
      "tags: [welcome]",
      "---",
      "Hello from **\x7bsiteTitle\x7d**.",
      "",
      "Tagged: \x7bforeach tags tag\x7d*\x7btag\x7d* \x7bend\x7d" ]

def directories : List String := ["contents", "templates"]

def samples : List (String × String) :=
  [("templates/page.html", layoutText), ("contents/index.md", documentText)]

/-- The files that say what a version control or a search should leave out. -/
def ignoreFiles : List String := [".gitignore", ".ignore"]

def ignoredText (s : Settings) : String :=
  match FilePath.namesBelow? s.build.output s.root with
  | some names => String.intercalate "/" names
  | none => s.build.output

/-! ## Making it -/

/-- Nothing lies there, or a directory with nothing in it. -/
def isVacant (tree : FileTree) (path : String) : Except FileFault Bool :=
  match tree.resolve [] path with
  | .error _ => .ok true
  | .ok place =>
    if tree.isDirectoryAt place then .ok (tree.below place).isEmpty else .error .notDirectory

/-- Fails unless the site can lie there.  `named` says that the command line names the
directory. -/
def checkVacant (root : String) (named : Bool) : FileWork Unit := do
  match ← FileWork.look fun tree => isVacant tree root with
  | .ok true => pure ()
  | .ok false => FileWork.fail (.of (if named then .notEmpty root else .workingDirectoryNotEmpty))
  | .error fault => FileWork.fail (.of (.file fault))

def makeDirectory (path : String) : FileWork Unit := do
  if ← FileWork.look fun tree => tree.pathExists [] path then
    FileWork.fail (.of (.alreadyThere path))
  else FileWork.within (.creating path) (FileWork.makeDirectories path fun f => .of (.file f))

def writeMissing (path text : String) : FileWork Unit := do
  if ← FileWork.look fun tree => tree.pathExists [] path then pure ()
  else FileWork.writeText path text fun f => .of (.file f)

def create (s : Settings) (named : Bool) : FileWork Unit := do
  let inSite := FilePath.join s.root
  checkVacant s.root named
  directories.forM fun name => makeDirectory (inSite name)
  FileWork.writeText (inSite Command.defaultSettings) settingsText fun f => .of (.file f)
  samples.forM fun (name, text) =>
    FileWork.within (.writing (inSite name))
      (FileWork.writeText (inSite name) text fun f => .of (.file f))
  ignoreFiles.forM fun name => writeMissing (inSite name) (ignoredText s)

end Folio.Starter
