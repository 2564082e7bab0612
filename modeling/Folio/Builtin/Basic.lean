import Folio.Builtin.Arithmetic
import Folio.Builtin.Format
import Folio.Builtin.Navigation

/-!
# The built-in functions

What every site can call, and what a site binds besides: its own title and author, the
language, the time of the build, and the aggregated tags and categories.
-/

namespace Folio.Builtin

open Calendar (Timestamp offsetName)

def defaultLayout : String := "page"

variable {m : Type → Type} {σ : Type} [Monad m] [Scoping m σ]

def runDeferred (name : String) (r : Evaluator m σ) (args : List Expr) (s : σ) : m Expr :=
  match name with
  | "relative" => relative r args s
  | "lookup" => lookup r args s
  | "older" => neighbour .older r args s
  | "newer" => neighbour .newer r args s
  | "card" => link "card-fallback" r args s
  | "embed" => link "embed-fallback" r args s
  | _ => pure (.value .null)

def tools : Tools m σ where
  deferred c r args s := runDeferred c.name r args s
  contextual _ _ locale args := format locale args
  strict c args :=
    match Operation.ofName? c.name with
    | some op => op.run args
    | none => .ok .null

def toolbox : Toolbox :=
  tools

/-- The built-in callables, as one registration binds them. -/
def callables (registration : Nat) : List Callable :=
  Operation.all.map (fun op => ⟨.strict, op.name, registration⟩) ++
    ⟨.contextual, "format", registration⟩ ::
    ["relative", "lookup", "older", "newer", "card", "embed"].map fun name =>
      ⟨.deferred, name, registration⟩

/-- The bindings of the built-in functions, and of the default layout. -/
def bindings (registration : Nat) : Fields :=
  (callables registration).map (fun c => (c.name, .value (.callable c))) ++
    [("layout", .value (.str defaultLayout))]

structure SiteInfo where
  title : String
  author : String
  lang : String
  /-- The offset of the site's timezone, in seconds. -/
  timezone : Int
  /-- When the site was built. -/
  generated : Timestamp

def SiteInfo.bindings (site : SiteInfo) : Fields :=
  [ ("siteTitle", .value (.str site.title)),
    ("author", .value (.str site.author)),
    ("lang", .value (.str site.lang)),
    ("timezone", .value (.str (String.ofList (offsetName site.timezone)))),
    ("generated", .value (.date (site.generated.atOffset site.timezone))) ]

def aggregateBindings (tags : List Tag) (root : Category) : Fields :=
  [ (tagListKey, .value (tagListValue tags)),
    (rootCategoryKey, .value (.entry (.category root))) ]

end Folio.Builtin
