import Folio.Decimal.Binary

/-!
# The fewest digits that read back

The decimals that read back as a given float are those nearer to it than to its
neighbours.  `shortest` tries ever finer decimal grids and takes the first grid
that has such a point; of two points it takes the nearer.  All comparisons are of
natural numbers, so nothing is rounded on the way.
-/

namespace Folio.Decimal

structure Digits where
  digits : Nat
  exponent : Int
  deriving DecidableEq, Repr

/-- The number of decimal digits of a natural number; zero has one. -/
def digitCount (n : Nat) : Nat :=
  (Nat.toDigits 10 n).length

/-- The position of the leading digit of `n / d`: the least `k` with `n / d < 10 ^ k`,
for a value that is at least `10 ^ -400`. -/
def leadingPlace (n d : Nat) : Int :=
  (digitCount (n * tenTo 400 / d) : Int) - 400

/-- A value between the two ends of the interval that reads back to it, all over one
denominator.  The ends belong to the interval when the mantissa is even. -/
structure Interval where
  low : Nat
  value : Nat
  high : Nat
  denominator : Nat
  closed : Bool

/-- The interval of the reals that round to the value: half a gap to either side. -/
def Binary.interval (b : Binary) : Interval :=
  let e := b.exponent - 2
  let scale := twoTo e.toNat
  { low := (4 * b.mantissa - if b.narrowBelow then 1 else 2) * scale
    value := 4 * b.mantissa * scale
    high := (4 * b.mantissa + 2) * scale
    denominator := twoTo (-e).toNat
    closed := b.mantissa % 2 == 0 }

def Interval.contains (i : Interval) (c : Nat) (g : Int) : Bool :=
  let point := c * tenTo g.toNat * i.denominator
  let unit := tenTo (-g).toNat
  let above := i.low * unit < point || (i.closed && i.low * unit == point)
  let below := point < i.high * unit || (i.closed && i.high * unit == point)
  above && below

/-- The point of the grid of step `10 ^ g` that reads back, if there is one: a point
of the interval is one of the value's two neighbours on the grid.  Of two the nearer
is taken, and the upper one where both are as near. -/
def Interval.onGrid (i : Interval) (g : Int) : Option Nat :=
  let value := i.value * tenTo (-g).toNat
  let step := tenTo g.toNat * i.denominator
  let c := value / step
  match i.contains c g, i.contains (c + 1) g with
  | true, true => if 2 * value < (2 * c + 1) * step then some c else some (c + 1)
  | true, false => some c
  | false, true => some (c + 1)
  | false, false => none

/-- Moves the trailing zeros of the digits into the exponent; `fuel` bounds how many. -/
def Digits.strip (fuel : Nat) (d : Digits) : Digits :=
  match fuel with
  | 0 => d
  | n + 1 =>
    if d.digits ≠ 0 ∧ d.digits % 10 = 0 then strip n ⟨d.digits / 10, d.exponent + 1⟩ else d

/-- The decimal with the fewest digits that reads back as the value, and of those the
nearest one.  Seventeen digits always suffice; were they not to, the answer would be
the value itself, written out exactly. -/
def Binary.shortest (b : Binary) : Digits :=
  if b.mantissa == 0 then ⟨0, 0⟩
  else
    let i := b.interval
    let place := leadingPlace i.value i.denominator
    let found := (List.range 17).findSome? fun (n : Nat) =>
      let g := place - 1 - (n : Int)
      (i.onGrid g).map fun c => (⟨c, g⟩ : Digits)
    match found with
    | some d => d.strip 20
    | none =>
      let (n, _) := b.fraction
      ⟨n * fiveTo (-b.exponent).toNat, min b.exponent 0⟩

end Folio.Decimal
