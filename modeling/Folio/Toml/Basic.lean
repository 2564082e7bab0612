import Folio.Calendar.Timestamp

/-!
# TOML values

What a TOML document holds: a table of keys and values, in the order of its keys.  Dates
and times may lack the offset, the time or the date.
-/

namespace Folio.Toml

open Calendar (Date)

structure Clock where
  hour : Nat
  minute : Nat
  second : Nat
  nanos : Nat
  deriving DecidableEq, Repr, Inhabited

/-- The distance from universal time. -/
inductive Offset where
  | universal
  | minutes (count : Int)
  deriving DecidableEq, Repr

/-- A date, a time, or both, and then perhaps an offset. -/
inductive Moment where
  | date (date : Date)
  | clock (clock : Clock)
  | both (date : Date) (clock : Clock) (offset : Option Offset)
  deriving DecidableEq, Repr

inductive Value where
  | string (s : String)
  | integer (i : Int64)
  | float (x : Float)
  | boolean (b : Bool)
  | moment (m : Moment)
  | array (items : List Value)
  | table (entries : List (String × Value))

abbrev Table := List (String × Value)

/-! ## Writing moments -/

open Calendar (padNat twoDigits)

def dateText (d : Date) : List Char :=
  padNat '0' 4 d.year.toNat ++ '-' :: twoDigits d.month ++ '-' :: twoDigits d.day

/-- The time of day; a fraction of a second is written without zeros at its end. -/
def Clock.text (c : Clock) : List Char :=
  let fraction := (padNat '0' 9 c.nanos).reverse.dropWhile (· == '0')
  twoDigits c.hour ++ ':' :: twoDigits c.minute ++ ':' :: twoDigits c.second ++
    if c.nanos = 0 then [] else '.' :: fraction.reverse

def Offset.text : Offset → List Char
  | .universal => ['Z']
  | .minutes count =>
    (if count < 0 then '-' else '+') :: twoDigits (count.natAbs / 60) ++
      ':' :: twoDigits (count.natAbs % 60)

def Moment.text : Moment → List Char
  | .date d => dateText d
  | .clock c => c.text
  | .both d c offset => dateText d ++ 'T' :: c.text ++ (offset.map Offset.text).getD []

end Folio.Toml
