import Folio.Decimal.Shortest

/-!
# How a float is written

Which digits a float has is settled by `Binary.shortest`.  A `Layout` says how they
are set out: up to which size positionally, and whether a whole number keeps a `.0`.
Text for readers is always positional; a literal in an expression keeps its point,
so that it stays a float when it is read again.
-/

namespace Folio.Decimal

/-- The decisions about a float's text. -/
structure Layout where
  /-- Whole numbers in positional form end in `.0`. -/
  pointZero : Bool
  /-- The bounds (first inside, second outside) of the leading digit's exponent within
  which the positional form is used; without bounds it always is. -/
  positional : Option (Int × Int)
  deriving DecidableEq, Repr

/-- The fewest digits, always positional, and no point in a whole number. -/
def Layout.plain : Layout := ⟨false, none⟩

/-- The fewest digits, positional from `0.0001` up to below `10 ^ 16` and with an
exponent otherwise, and a point in every positional number. -/
def Layout.literal : Layout := ⟨true, some (-4, 16)⟩

/-- Sets digits out with a point, and zeros where the digits do not reach it. -/
def Layout.positionalText (l : Layout) (d : Digits) : List Char :=
  let digits := Nat.toDigits 10 d.digits
  let point : Int := digits.length + d.exponent
  if point ≤ 0 then
    '0' :: '.' :: List.replicate (-point).toNat '0' ++ digits
  else if digits.length ≤ point then
    digits ++ List.replicate d.exponent.toNat '0' ++ (if l.pointZero then ['.', '0'] else [])
  else
    digits.take point.toNat ++ '.' :: digits.drop point.toNat

/-- Sets digits out as one digit, the others after a point, and the exponent. -/
def exponentText (d : Digits) : List Char :=
  let digits := Nat.toDigits 10 d.digits
  let exponent := (digits.length : Int) + d.exponent - 1
  let fraction := if digits.length ≤ 1 then [] else '.' :: digits.drop 1
  let sign := if exponent < 0 then ['-'] else []
  digits.take 1 ++ fraction ++ 'e' :: sign ++ Nat.toDigits 10 exponent.natAbs

def Layout.digitsText (l : Layout) (d : Digits) : List Char :=
  let leading := (digitCount d.digits : Int) + d.exponent - 1
  match l.positional with
  | some (first, last) =>
    if d.digits == 0 || (first ≤ leading && leading < last) then l.positionalText d
    else exponentText d
  | none => l.positionalText d

/-- The text of a float.  Negative zero has a sign and a NaN has none. -/
def Layout.write (l : Layout) (x : Float) : String :=
  match Reading.ofFloat x with
  | .nan => "NaN"
  | .infinite negative => if negative then "-inf" else "inf"
  | .finite negative b =>
    String.ofList ((if negative then ['-'] else []) ++ l.digitsText b.shortest)

end Folio.Decimal
