/-!
# Binary floating-point values, exactly

A finite 64-bit float is a whole number times a power of two.  Choosing digits,
rounding to a number of places and taking a remainder are exact questions about
that number, so they are answered over `Nat`, and floats only come in and go out.
-/

namespace Folio.Decimal

/-! ## Powers -/

def twoTo (n : Nat) : Nat :=
  Nat.pow 2 n

def fiveTo (n : Nat) : Nat :=
  Nat.pow 5 n

def tenTo (n : Nat) : Nat :=
  Nat.pow 10 n

/-! ## Floats as exact numbers -/

/-- The magnitude `mantissa * 2 ^ exponent` of a finite float. -/
structure Binary where
  mantissa : Nat
  exponent : Int
  /-- The neighbour below is half as far away as the neighbour above. -/
  narrowBelow : Bool
  deriving DecidableEq, Repr

/-- What the bits of a float say. -/
inductive Reading where
  | nan
  | infinite (negative : Bool)
  | finite (negative : Bool) (magnitude : Binary)
  deriving DecidableEq, Repr

/-- Takes the bits of a float apart: a sign, eleven bits of exponent, and a
fraction of fifty-two bits below a leading one that only the smallest values
lack. -/
def Reading.ofFloat (x : Float) : Reading :=
  let bits := x.toBits.toNat
  let negative := bits / twoTo 63 == 1
  let exponent : Nat := bits / twoTo 52 % twoTo 11
  let fraction : Nat := bits % twoTo 52
  if exponent == 2047 then
    if fraction == 0 then .infinite negative else .nan
  else if exponent == 0 then
    .finite negative ⟨fraction, -1074, false⟩
  else
    .finite negative ⟨twoTo 52 + fraction, (exponent : Int) - 1075, fraction == 0 && exponent > 1⟩

def isInfinite (x : Float) : Bool :=
  match Reading.ofFloat x with
  | .infinite _ => true
  | _ => false

def isNegative (x : Float) : Bool :=
  x.toBits.toNat / twoTo 63 == 1

/-- A fraction of natural numbers with the value of the magnitude. -/
def Binary.fraction (b : Binary) : Nat × Nat :=
  (b.mantissa * twoTo b.exponent.toNat, twoTo (-b.exponent).toNat)

def ofScaled (negative : Bool) (n : Nat) (e : Int) : Float :=
  let magnitude :=
    if e < 0 then Float.ofScientific (n * fiveTo (-e).toNat) true (-e).toNat
    else Float.ofScientific (n * twoTo e.toNat) false 0
  if negative then -magnitude else magnitude

/-- The remainder of a division whose quotient is cut off toward zero.  It is exact
and has the sign of the dividend; a zero divisor or an infinite dividend has none. -/
def remainder (x y : Float) : Float :=
  match Reading.ofFloat x, Reading.ofFloat y with
  | .finite negative a, .finite _ b =>
    if b.mantissa == 0 then 0.0 / 0.0
    else
      let e := min a.exponent b.exponent
      let n := a.mantissa * twoTo (a.exponent - e).toNat
      let d := b.mantissa * twoTo (b.exponent - e).toNat
      ofScaled negative (n % d) e
  | .finite _ _, .infinite _ => x
  | _, _ => 0.0 / 0.0

/-! ## A fixed number of places -/

/-- The quotient rounded to the nearest whole number, halves to the even one. -/
def roundDiv (n d : Nat) : Nat :=
  let q := n / d
  let r := n % d
  if 2 * r < d then q
  else if d < 2 * r then q + 1
  else if q % 2 == 0 then q
  else q + 1

/-- The whole part and the digits after the point of a magnitude, rounded to `places`
digits after the point. -/
def Binary.places (b : Binary) (places : Nat) : List Char × List Char :=
  let (n, d) := b.fraction
  let digits := Nat.toDigits 10 (roundDiv (n * tenTo places) d)
  let padded := List.replicate (places + 1 - digits.length) '0' ++ digits
  (padded.take (padded.length - places), padded.drop (padded.length - places))

/-- The most places with which a number can be written: what sixteen bits count. -/
def maxPlaces : Nat := 65535

/-- A float without its sign, rounded to `places` decimal places. -/
def magnitudeText (x : Float) (places : Nat) : List Char :=
  match Reading.ofFloat x with
  | .nan => "NaN".toList
  | .infinite _ => "inf".toList
  | .finite _ b =>
    let (whole, decimals) := b.places places
    if places == 0 then whole else whole ++ '.' :: decimals

end Folio.Decimal
