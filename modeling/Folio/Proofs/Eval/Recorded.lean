import Folio.Builtin.Basic
import Folio.Eval.Machine
import Folio.Proofs.Scope.History
import Folio.Template.Render

/-!
# Evaluation that makes its scopes in a forest

The evaluator that runs sees scopes as chains, which it can only put more in front of.  Here it has scopes
by number in a forest that all have in common: each look at a name is at the forest as it stands,
and the scope of a document or of a pass of a loop is made in it and bound to its names one after the
other.  What has been done stays done when evaluation fails, or when it goes too deep.
-/

namespace Folio

/-- An evaluation that does something to scopes: after each history it comes to an end, and leaves the
history that goes on through it. -/
structure Recorded (α : Type) where
  run : History → Eval α × History

namespace Recorded

instance : Monad Recorded where
  pure a := ⟨fun h => (pure a, h)⟩
  bind x f := ⟨fun h =>
    match x.run h with
    | (some (.ok a), h) => (f a).run h
    | (some (.error fault), h) => (some (.error fault), h)
    | (none, h) => (none, h)⟩

variable {α : Type}

def ofEval (x : Eval α) : Recorded α :=
  ⟨fun h => (x, h)⟩

def seen (i : ℕ) : Recorded Scope :=
  ⟨fun h => (pure (h.forest.scope i), h)⟩

def spawn (parent : ℕ) : Recorded ℕ :=
  ⟨fun h => (pure h.size, h ++ [.spawn parent])⟩

def set (scope : ℕ) (name : String) (e : Expr) : Recorded Unit :=
  ⟨fun h => (pure (), h ++ [.set scope name e])⟩

/-- Makes several bindings in a scope, one after the other. -/
def setAll (scope : ℕ) : Fields → Recorded Unit
  | [] => pure ()
  | (name, e) :: more => do
    set scope name e
    setAll scope more

/-- Makes a scope inside another and binds names in it. -/
def make (parent : ℕ) (fields : Fields) : Recorded ℕ := do
  let scope ← spawn parent
  setAll scope fields
  pure scope

end Recorded

/-- What a document sets in its scope, one name after the other: its header, the defaults where the header
has nothing or a blank, and its two paths.  The header is set from its last field on, so that of two fields
of one name the first one stays. -/
def Document.writes (d : Document) : Fields :=
  let silent := d.defaults.filter fun (key, _) => (Keyed.get? key d.header).all Document.isBlankLiteral
  d.header.reverse ++ silent.map (fun (key, value) => (key, .value value)) ++
    [("path", .value (.entry (.path d.path))), ("markdownPath", .value (.entry (.path d.source)))]

/-- Scopes are known by their numbers, and seen as they are at that moment. -/
instance : Scoping Recorded ℕ where
  lift := Recorded.ofEval
  seen := Recorded.seen
  inside d i := Recorded.make i d.writes
  binding name e i := Recorded.make i [(name, e)]

/-- The evaluator with scopes by number. -/
abbrev Recorder := Evaluator Recorded ℕ

end Folio
