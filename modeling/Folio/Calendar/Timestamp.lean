import Folio.Calendar.Date

/-!
# Moments with an offset

A timestamp is a moment of universal time and the offset at which it is shown.  Two
timestamps are compared by the moment alone.  A leap second is written as the sixtieth
second of its minute: it shares its number of seconds with the second before it, and
its nanoseconds run on past the thousand million.
-/

namespace Folio.Calendar

/-- A moment and the offset at which it is shown. -/
structure Timestamp where
  /-- Seconds of universal time since 1970-01-01T00:00:00. -/
  seconds : Int
  /-- Nanoseconds within the second; a thousand million or more within a leap second. -/
  nanos : Nat
  /-- Local time less universal time, in seconds. -/
  offset : Int
  deriving DecidableEq, Repr

def Timestamp.sameMoment (a b : Timestamp) : Bool :=
  a.seconds == b.seconds && a.nanos == b.nanos

def Timestamp.compare (a b : Timestamp) : Ordering :=
  (Ord.compare a.seconds b.seconds).then (Ord.compare a.nanos b.nanos)

def Timestamp.atOffset (t : Timestamp) (offset : Int) : Timestamp :=
  { t with offset }

/-- A date and a time of day, without an offset. -/
structure Local where
  date : Date
  hour : Nat
  minute : Nat
  /-- From 0; 60 in a leap second. -/
  second : Nat
  /-- Below a thousand million. -/
  nanos : Nat
  deriving DecidableEq, Repr

def nanosPerSecond : Nat := 1000000000

/-- The number of the day on which the timestamp falls where it is shown. -/
def Timestamp.localDay (t : Timestamp) : Int :=
  (t.seconds + t.offset) / 86400

/-- What the calendar and the clock show at the timestamp's offset. -/
def Timestamp.toLocal (t : Timestamp) : Local :=
  let ofDay := ((t.seconds + t.offset) % 86400).toNat
  { date := Date.ofDay t.localDay
    hour := ofDay / 3600
    minute := ofDay / 60 % 60
    second := ofDay % 60 + t.nanos / nanosPerSecond
    nanos := t.nanos % nanosPerSecond }

/-- The timestamp that shows this date and time at the offset.  There is none for a
time that no clock shows, an offset of a day or more, or a moment out of range. -/
def Local.toTimestamp? (l : Local) (offset : Int) : Option Timestamp :=
  if l.hour < 24 && l.minute < 60 && l.second ≤ 60 && offset.natAbs < 86400 then
    let leap := l.second == 60
    let second := if leap then 59 else l.second
    let ofDay := l.hour * 3600 + l.minute * 60 + second
    let seconds := l.date.toDay * 86400 + ofDay - offset
    let day := seconds / 86400
    if firstDay ≤ day && day ≤ lastDay then
      some ⟨seconds, l.nanos + if leap then nanosPerSecond else 0, offset⟩
    else none
  else none

/-! ## Text -/

/-- A natural number, filled up at the front to a width. -/
def padNat (fill : Char) (width n : Nat) : List Char :=
  let digits := Nat.toDigits 10 n
  List.replicate (width - digits.length) fill ++ digits

def twoDigits (n : Nat) : List Char :=
  padNat '0' 2 n

/-- Years from 0 to 9999 have four digits; other years have a sign and four digits or
more. -/
def yearText (year : Int) : List Char :=
  if 0 ≤ year && year ≤ 9999 then padNat '0' 4 year.toNat
  else (if year < 0 then '-' else '+') :: padNat '0' 4 year.natAbs

/-- A fraction of a second: nothing for none, else a point and three, six or nine
digits, as few as show it exactly. -/
def fractionText (nanos : Nat) : List Char :=
  if nanos == 0 then []
  else if nanos % 1000000 == 0 then '.' :: padNat '0' 3 (nanos / 1000000)
  else if nanos % 1000 == 0 then '.' :: padNat '0' 6 (nanos / 1000)
  else '.' :: padNat '0' 9 nanos

/-- An offset as a sign, hours and minutes, and `separator` between the two.  Seconds
are rounded to the nearest minute. -/
def offsetText (separator : List Char) (offset : Int) : List Char :=
  let minutes := (offset.natAbs + 30) / 60
  (if offset < 0 then '-' else '+') :: twoDigits (minutes / 60) ++ separator ++
    twoDigits (minutes % 60)

def offsetName (offset : Int) : List Char :=
  let n := offset.natAbs
  (if offset < 0 then '-' else '+') :: twoDigits (n / 3600) ++ ':' :: twoDigits (n / 60 % 60) ++
    if n % 60 == 0 then [] else ':' :: twoDigits (n % 60)

def Date.text (d : Date) : List Char :=
  yearText d.year ++ '-' :: twoDigits d.month ++ '-' :: twoDigits d.day

def Local.clockText (l : Local) : List Char :=
  twoDigits l.hour ++ ':' :: twoDigits l.minute ++ ':' :: twoDigits l.second

/-- The timestamp in the Internet date format: `2022-03-04T05:06:07.5+09:00`, with the
fraction in groups of three digits. -/
def Timestamp.text (t : Timestamp) : String :=
  let l := t.toLocal
  String.ofList (l.date.text ++ 'T' :: l.clockText ++ fractionText l.nanos ++
    offsetText [':'] t.offset)

end Folio.Calendar
