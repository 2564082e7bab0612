import Folio.Decimal.Numeral
import Folio.Expr.Basic
import Folio.Fault
import Folio.Text.Blank

/-!
# Arithmetic

Each operation folds its arguments from the left.  Whole numbers stay whole and exact:
a result that does not fit into sixty-four bits is refused.  As soon as a float takes
part, the rest is done in floats.
-/

namespace Folio

/-- The float that a value stands for, if it is a number or a string that writes one. -/
def Value.toFloat? : Value → Option Float
  | .int i => some (Float.ofInt i.toInt)
  | .float x => some x
  | .str s => Decimal.readFloat? (Text.trimChars s.toList)
  | _ => none

end Folio

namespace Folio.Builtin

open Decimal (readInt64? readFloat?)

inductive Number where
  | int (i : Int64)
  | float (x : Float)

namespace Number

def toFloat : Number → Float
  | .int i => Float.ofInt i.toInt
  | .float x => x

def toValue : Number → Value
  | .int i => .int i
  | .float x => .float x

/-- The number that an argument of the function stands for; a string may write one. -/
def ofValue (function : String) : Value → Except Fault Number
  | .int i => .ok (.int i)
  | .float x => .ok (.float x)
  | .str s =>
    let digits := Text.trimChars s.toList
    match readInt64? digits with
    | some i => .ok (.int i)
    | none =>
      match readFloat? digits with
      | some x => .ok (.float x)
      | none => .error (.call (.notNumber function (String.ofList digits)))
  | v => .error (.call (.numberExpected function v.typeName))

end Number

inductive Operation where
  | add
  | sub
  | mul
  | div
  | mod
  deriving DecidableEq, Repr

namespace Operation

def all : List Operation :=
  [.add, .sub, .mul, .div, .mod]

def name : Operation → String
  | .add => "add"
  | .sub => "sub"
  | .mul => "mul"
  | .div => "div"
  | .mod => "mod"

def ofName? (name : String) : Option Operation :=
  all.find? fun op => op.name == name

/-- The operation over all integers.  A quotient is cut off toward zero, and a remainder
has the sign of the dividend. -/
def exact : Operation → Int → Int → Int
  | .add, a, b => a + b
  | .sub, a, b => a - b
  | .mul, a, b => a * b
  | .div, a, b => Int.tdiv a b
  | .mod, a, b => Int.tmod a b

def divides : Operation → Bool
  | .div | .mod => true
  | _ => false

/-- The operation on whole numbers.  Where the quotient does not fit, there is no
remainder either. -/
def onInts (op : Operation) (a b : Int64) : Except Fault Number :=
  if op.divides && b == 0 then .error (.call (.divisionByZero op.name))
  else
    let result := op.exact a.toInt b.toInt
    let quotient := if op.divides then Operation.div.exact a.toInt b.toInt else result
    if Decimal.fitsInt64 result && Decimal.fitsInt64 quotient then .ok (.int (Int64.ofInt result))
    else .error (.call (.overflow op.name))

def onFloats : Operation → Float → Float → Float
  | .add, x, y => x + y
  | .sub, x, y => x - y
  | .mul, x, y => x * y
  | .div, x, y => x / y
  | .mod, x, y => Decimal.remainder x y

def apply (op : Operation) : Number → Number → Except Fault Number
  | .int a, .int b => op.onInts a b
  | a, b => .ok (.float (op.onFloats a.toFloat b.toFloat))

/-- Goes on with the operation from a number over further arguments. -/
def foldFrom (op : Operation) : Number → List Value → Except Fault Number
  | acc, [] => .ok acc
  | acc, v :: vs =>
    match Number.ofValue op.name v with
    | .error fault => .error fault
    | .ok b =>
      match op.apply acc b with
      | .error fault => .error fault
      | .ok acc => op.foldFrom acc vs

def run (op : Operation) : List Value → Except Fault Value
  | [] => .error (.call (.noArguments op.name))
  | v :: vs =>
    match Number.ofValue op.name v with
    | .error fault => .error fault
    | .ok first => (op.foldFrom first vs).map Number.toValue

end Operation

end Folio.Builtin
