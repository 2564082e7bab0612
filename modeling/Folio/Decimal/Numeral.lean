import Folio.Decimal.Binary
import Folio.Text.Letter

/-!
# Numbers read from text

A whole number is an optional sign and digits, within sixty-four bits.  A float is an
optional sign and one of: digits with an optional point and an optional exponent,
`inf`, `infinity`, or `nan`, the words in any case.  Nothing may stand around a number:
no blanks, no separators.
-/

namespace Folio.Decimal

def digitValue (c : Char) : Nat :=
  c.toNat - '0'.toNat

/-- The number that the digits write, after a number already read. -/
def digitsValue (start : Nat) (digits : List Char) : Nat :=
  digits.foldl (fun n c => 10 * n + digitValue c) start

/-- Takes a leading sign off: whether it was a minus, and the rest. -/
def splitSign : List Char → Bool × List Char
  | '-' :: rest => (true, rest)
  | '+' :: rest => (false, rest)
  | s => (false, s)

def readNat? (s : List Char) : Option Nat :=
  if s.isEmpty || s.any (fun c => !c.isDigit) then none else some (digitsValue 0 s)

def fitsInt64 (i : Int) : Bool :=
  Int64.minValue.toInt ≤ i && i ≤ Int64.maxValue.toInt

def readInt64? (s : List Char) : Option Int64 :=
  let (negative, digits) := splitSign s
  match readNat? digits with
  | some n =>
    let i : Int := if negative then -(n : Int) else n
    if fitsInt64 i then some (Int64.ofInt i) else none
  | none => none

/-- The exponent that follows a mantissa: nothing, or `e` and a signed number. -/
def readExponent? : List Char → Option Int
  | [] => some 0
  | c :: rest =>
    if c == 'e' || c == 'E' then
      let (negative, digits) := splitSign rest
      (readNat? digits).map fun n => if negative then -(n : Int) else (n : Int)
    else none

def significant (digits : List Char) : List Char :=
  digits.dropWhile (· == '0')

/-- The float nearest to `n * 10 ^ e`, where `n` has so many digits.  Beyond the range of floats the
answer is known without computing the power. -/
def nearestFloat (n : Nat) (digits : Nat) (e : Int) : Float :=
  if n == 0 || digits + e < -400 then 0.0
  else if digits + e > 400 then 1.0 / 0.0
  else Float.ofScientific n (e < 0) e.natAbs

/-- The float written by digits with an optional point and exponent. -/
def readDecimal? (s : List Char) : Option Float :=
  let whole := s.takeWhile Char.isDigit
  let afterWhole := s.dropWhile Char.isDigit
  let (decimals, rest) :=
    match afterWhole with
    | '.' :: r => (r.takeWhile Char.isDigit, r.dropWhile Char.isDigit)
    | r => ([], r)
  if whole.isEmpty && decimals.isEmpty then none
  else
    (readExponent? rest).map fun e =>
      let digits := significant (whole ++ decimals)
      nearestFloat (digitsValue 0 digits) digits.length (e - decimals.length)

def readFloat? (s : List Char) : Option Float :=
  let (negative, body) := splitSign s
  let magnitude :=
    let word := body.map Char.toLower
    if word == "inf".toList || word == "infinity".toList then some (1.0 / 0.0)
    else if word == "nan".toList then some (0.0 / 0.0)
    else readDecimal? body
  magnitude.map fun x => if negative then -x else x

end Folio.Decimal
