import Folio.Entry.Property
import Folio.Expr.Printer

/-!
# The evaluator

One step of evaluation is written in terms of a reducer for everything that it leads to;
`reducerOfDepth` then ties the two together, one level of depth at a time.  Evaluation
is not bound to end, since documents can be written in terms of one another; a depth is
what makes it a function.
-/

namespace Folio

def Scope.literalLookup (s : Scope) (name : String) : Option Value :=
  match s.lookup name with
  | some (.value v) => some v
  | _ => none

namespace Evaluator

variable {m : Type → Type} {σ : Type} [Monad m] [Scoping m σ]

/-- Follows the properties of a value as far as they are known. -/
def follow (r : Evaluator m σ) (s : σ) : Value → List String → m Value
  | v, [] => pure v
  | .entry e, name :: names => do
    match ← e.property? r name s with
    | some next => r.follow s next names
    | none => pure (.entry e)
  | v, _ :: _ => pure v

/-- The value of a dotted name.  A name that is not bound is its own text. -/
def reduceVariable (r : Evaluator m σ) (name : String) (s : σ) : m Value :=
  match SitePath.pieces (· == '.') name.toList with
  | [] => pure (.str "")
  | head :: properties => do
    let head := String.ofList head
    let chain ← Scoping.seen s
    match chain.resolve? head with
    | none => pure (.str head)
    | some e => do
      let v ← r.reduce e s
      r.follow s v (properties.map String.ofList)

def apply (r : Evaluator m σ) (tools : Tools m σ) (function : Expr) (args : List Expr) (s : σ) :
    m Value := do
  match ← r.reduce function s with
  | .callable c => do
    r.checkCanceled
    match c.style with
    | .deferred => do
      let result ← tools.deferred c r args s
      r.reduce result s
    | .contextual => do
      let values ← r.reduceAll args s
      let locale ← r.locale s
      let chain ← Scoping.seen s
      Scoping.lift (Eval.ofExcept (tools.contextual c chain.literalLookup locale values))
    | .strict => do
      let values ← r.reduceAll args s
      Scoping.lift (Eval.ofExcept (tools.strict c values))
  | v => Scoping.lift (Eval.fail (.call (.notFunction function.text v.typeName)))

/-- One step of evaluation; everything further is left to the reducer. -/
def reduceStep (r : Evaluator m σ) (tools : Tools m σ) (e : Expr) (s : σ) : m Value :=
  match e with
  | .value v => pure v
  | .variable name => r.reduceVariable name s
  | .array items => do
    let values ← r.reduceAll items s
    pure (.list values)
  | .apply function args => r.apply tools function args s

def writeAll (r : Evaluator m σ) (locale : Locale) (s : σ) : List Value → m (List String)
  | [] => pure []
  | v :: vs => do
    let text ← r.write locale v s
    let texts ← r.writeAll locale s vs
    pure (text :: texts)

/-- One step of writing a value: lists are joined with commas, and an entry is written
as what stands for it. -/
def writeStep (r : Evaluator m σ) (locale : Locale) (v : Value) (s : σ) : m String :=
  match v with
  | .null => pure ""
  | .str text => pure text
  | .bool b => pure (if b then "true" else "false")
  | .int i => pure (toString i.toInt)
  | .float x => pure (locale.floatText x)
  | .date t => pure (locale.timestampText t)
  | .list items => do
    let texts ← r.writeAll locale s items
    pure (String.intercalate "," texts)
  | .entry e => do
    let implicit ← e.implicitValue r s
    r.write locale implicit s
  | .callable c => pure c.name

end Evaluator

def reducerOfDepth {m : Type → Type} {σ : Type} [Monad m] [Scoping m σ] (tools : Tools m σ) (canceled : Bool) :
    Nat → Evaluator m σ
  | 0 => ⟨canceled, fun _ _ => Scoping.lift .unfinished, fun _ _ _ => Scoping.lift .unfinished⟩
  | depth + 1 =>
    { canceled
      reduce := fun e s => (reducerOfDepth tools canceled depth).reduceStep tools e s
      write := fun locale v s => (reducerOfDepth tools canceled depth).writeStep locale v s }

/-- A depth that no evaluation reaches that comes to an end on this machine. -/
def maxDepth : Nat := 20000

def Reducer.ofTools (tools : Toolbox) (canceled : Bool) : Reducer :=
  reducerOfDepth tools canceled maxDepth

end Folio
