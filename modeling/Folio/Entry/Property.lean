import Folio.Entry.Category
import Folio.Entry.Document
import Folio.Entry.Tag

/-!
# Properties of entries

What `entry.name` stands for, and what an entry is when it is printed by itself.
-/

namespace Folio

mutual

/-- The value inside any number of loop items. -/
def Value.unwrapped : Value → Value
  | .entry e => e.unwrapped
  | .null => .null
  | .bool b => .bool b
  | .int i => .int i
  | .float x => .float x
  | .str s => .str s
  | .date t => .date t
  | .list items => .list items
  | .callable c => .callable c
termination_by structural v => v

/-- The value inside an entry: itself, unless it is a loop item. -/
def Entry.unwrapped : Entry → Value
  | .loopItem i => i.unwrapped
  | .path p => .entry (.path p)
  | .document d => .entry (.document d)
  | .category c => .entry (.category c)
  | .categoryName c => .entry (.categoryName c)
  | .tag t => .entry (.tag t)
  | .tagName name => .entry (.tagName name)
termination_by structural e => e

def LoopItem.unwrapped : LoopItem → Value
  | ⟨_, _, _, value⟩ => value.unwrapped
termination_by structural i => i

end

def SitePath.property? (p : SitePath) (name : String) : Option Value :=
  let named : Option String → Value := fun n? => n?.elim .null .str
  match name with
  | "name" => some (named p.name?)
  | "stem" => some (named p.stem?)
  | "directory" => some (.entry (.path p.directory))
  | _ => none

namespace Entry

variable {m : Type → Type} {σ : Type} [Monad m] [Scoping m σ]

def ownProperty? (e : Entry) (r : Evaluator m σ) (name : String) (s : σ) : m (Option Value) :=
  match e with
  | .path p => pure (p.property? name)
  | .document d => d.property? r name s
  | .category c => pure (c.property? name)
  | .categoryName c => c.property? r name s
  | .tag t => pure (t.property? name)
  | .tagName named => TagName.property? r named name s
  | .loopItem _ => pure none

/-- A property of an entry, or nothing if it has none of this name.  A loop item knows its
place in the loop; for all else it passes the question on to its element. -/
def property? (e : Entry) (r : Evaluator m σ) (name : String) (s : σ) : m (Option Value) :=
  match e with
  | .loopItem i =>
    match name with
    | "index" => pure (some (.int i.index))
    | "count" => pure (some (.int i.count))
    | "item" => pure (some i.value)
    | _ =>
      match i.unwrapped with
      | .entry inner => inner.ownProperty? r name s
      | _ => pure none
  | e => e.ownProperty? r name s

/-- What stands for the entry when it is printed. -/
def implicitValue (e : Entry) (r : Evaluator m σ) (s : σ) : m Value :=
  match e with
  | .path p => pure (.str p.text)
  | .document d => d.title r s
  | .category c => pure (.str c.node.name)
  | .categoryName c => pure (.str c.name)
  | .tag t => pure (.str t.name)
  | .tagName name => pure (.str name)
  | .loopItem i => pure i.value

end Entry

end Folio
