/-!
# Calendar dates

Dates of the proleptic Gregorian calendar and the day numbers that count them.  Days
are numbered from 1970-01-01, which is day 0.  Years may be negative; year 0 is the
year before year 1.
-/

namespace Folio.Calendar

structure Date where
  year : Int
  month : Nat
  day : Nat
  deriving DecidableEq, Repr

/-- Every fourth year is a leap year, except the centuries that four hundred does not
divide. -/
def isLeapYear (year : Int) : Bool :=
  year % 4 == 0 && (year % 100 != 0 || year % 400 == 0)

def daysInMonth (year : Int) (month : Nat) : Nat :=
  match month with
  | 1 | 3 | 5 | 7 | 8 | 10 | 12 => 31
  | 4 | 6 | 9 | 11 => 30
  | 2 => if isLeapYear year then 29 else 28
  | _ => 0

def daysBeforeMonth (year : Int) (month : Nat) : Nat :=
  (List.range (month - 1)).foldl (fun days m => days + daysInMonth year (m + 1)) 0

def daysBeforeYear (year : Int) : Int :=
  let past := year - 1
  365 * year + past / 4 - past / 100 + past / 400 + 1

def Date.ordinal (d : Date) : Nat :=
  daysBeforeMonth d.year d.month + d.day

def Date.toDay (d : Date) : Int :=
  daysBeforeYear d.year + d.ordinal - 1 - 719528

/-- The year that holds a day.  The first guess takes all years as equally long and is
at most one year off. -/
def yearOfDay (day : Int) : Int :=
  let guess := (day + 719528) * 400 / 146097
  let first := fun y => daysBeforeYear y - 719528
  if day < first guess then guess - 1
  else if first (guess + 1) ≤ day then guess + 1
  else guess

/-- The month and day of the `n`-th day of a year, counted from 0, looking from
`month` on; `fuel` is the number of months left. -/
def monthOfOrdinal (year : Int) (fuel month n : Nat) : Nat × Nat :=
  match fuel with
  | 0 => (month, n + 1)
  | fuel + 1 =>
    let length := daysInMonth year month
    if n < length then (month, n + 1) else monthOfOrdinal year fuel (month + 1) (n - length)

def Date.ofDay (day : Int) : Date :=
  let year := yearOfDay day
  let rest := (day - (daysBeforeYear year - 719528)).toNat
  let (month, dayOfMonth) := monthOfOrdinal year 11 1 rest
  ⟨year, month, dayOfMonth⟩

def firstYear : Int := -262143

def lastYear : Int := 262142

def Date.mk? (year : Int) (month day : Nat) : Option Date :=
  if firstYear ≤ year && year ≤ lastYear && 1 ≤ day && day ≤ daysInMonth year month then
    some ⟨year, month, day⟩
  else none

def weekdayFromMonday (day : Int) : Nat :=
  ((day + 3) % 7).toNat

def weekdayFromSunday (day : Int) : Nat :=
  ((day + 4) % 7).toNat

/-- The number of weeks begun in the year before this day, where `fromStart` counts the
days since the weekday with which weeks begin. -/
def weekNumber (ordinal fromStart : Nat) : Nat :=
  (ordinal + 6 - fromStart) / 7

/-- The year and number of the week that holds a day, where weeks begin on Monday and
belong to the year that holds their Thursday. -/
def isoWeek (day : Int) : Int × Nat :=
  let thursday := day - weekdayFromMonday day + 3
  let date := Date.ofDay thursday
  (date.year, (date.ordinal - 1) / 7 + 1)

def monthNames : List String :=
  ["January", "February", "March", "April", "May", "June", "July", "August", "September",
    "October", "November", "December"]

def weekdayNames : List String :=
  ["Monday", "Tuesday", "Wednesday", "Thursday", "Friday", "Saturday", "Sunday"]

def monthName (month : Nat) : String :=
  monthNames.getD (month - 1) ""

def weekdayName (fromMonday : Nat) : String :=
  weekdayNames.getD fromMonday ""

/-- The three letters by which a month or a day is abbreviated. -/
def shortName (name : String) : String :=
  String.ofList (name.toList.take 3)

/-- The earliest and the latest day that a timestamp may fall on. -/
def firstDay : Int := Date.toDay ⟨firstYear, 1, 1⟩

def lastDay : Int := Date.toDay ⟨lastYear, 12, 31⟩

end Folio.Calendar
