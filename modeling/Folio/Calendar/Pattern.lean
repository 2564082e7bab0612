import Folio.Calendar.Timestamp
import Folio.Decimal.Binary
import Folio.Text.Blank

/-!
# Date patterns

A pattern such as `%Y-%m-%d` is read into items, and the items are filled from a
timestamp.  A pattern with an unknown field is no pattern.  One field, the lenient
offset `%#z`, can be read but not written.
-/

namespace Folio.Calendar

open Folio.Text (isBlank)

/-- How a number is filled up at the front. -/
inductive Fill where
  | nothing
  | zeros
  | blanks
  deriving DecidableEq, Repr

inductive NumberField where
  | year
  | century
  | yearOfCentury
  | weekYear
  | weekYearOfCentury
  | quarter
  | month
  | day
  | weekFromSunday
  | weekFromMonday
  | isoWeek
  | weekdayFromSunday
  | weekdayFromMonday
  | dayOfYear
  | hour
  | hour12
  | minute
  | second
  | nanosecond
  | seconds
  deriving DecidableEq, Repr

inductive TextField where
  | shortMonth
  | longMonth
  | shortWeekday
  | longWeekday
  | lowerHalf
  | upperHalf
  /-- A point and as many digits as needed, in threes. -/
  | fraction
  /-- This many digits of the fraction, with a point before them or not. -/
  | fractionDigits (digits : Nat) (point : Bool)
  | zoneName
  | offset
  | offsetColon
  | offsetSeconds
  | offsetHours
  /-- The offset that can only be read. -/
  | offsetLenient
  | internetFormat
  deriving DecidableEq, Repr

inductive Item where
  | literal (text : List Char)
  | number (field : NumberField) (fill : Fill)
  | text (field : TextField)
  deriving DecidableEq, Repr

/-! ## Reading patterns -/

def clockItems : List Item :=
  [.number .hour .zeros, .literal [':'], .number .minute .zeros, .literal [':'],
    .number .second .zeros]

def monthDayYearItems : List Item :=
  [.number .month .zeros, .literal ['/'], .number .day .zeros, .literal ['/'],
    .number .yearOfCentury .zeros]

def letterItems (c : Char) : Option (List Item) :=
  match c with
  | 'A' => some [.text .longWeekday]
  | 'B' => some [.text .longMonth]
  | 'C' => some [.number .century .zeros]
  | 'D' | 'x' => some monthDayYearItems
  | 'F' => some [.number .year .zeros, .literal ['-'], .number .month .zeros, .literal ['-'],
      .number .day .zeros]
  | 'G' => some [.number .weekYear .zeros]
  | 'H' => some [.number .hour .zeros]
  | 'I' => some [.number .hour12 .zeros]
  | 'M' => some [.number .minute .zeros]
  | 'P' => some [.text .lowerHalf]
  | 'R' => some [.number .hour .zeros, .literal [':'], .number .minute .zeros]
  | 'S' => some [.number .second .zeros]
  | 'T' | 'X' => some clockItems
  | 'U' => some [.number .weekFromSunday .zeros]
  | 'V' => some [.number .isoWeek .zeros]
  | 'W' => some [.number .weekFromMonday .zeros]
  | 'Y' => some [.number .year .zeros]
  | 'Z' => some [.text .zoneName]
  | 'a' => some [.text .shortWeekday]
  | 'b' | 'h' => some [.text .shortMonth]
  | 'c' => some ([.text .shortWeekday, .literal [' '], .text .shortMonth, .literal [' '],
      .number .day .blanks, .literal [' ']] ++ clockItems ++ [.literal [' '], .number .year .zeros])
  | 'd' => some [.number .day .zeros]
  | 'e' => some [.number .day .blanks]
  | 'f' => some [.number .nanosecond .zeros]
  | 'g' => some [.number .weekYearOfCentury .zeros]
  | 'j' => some [.number .dayOfYear .zeros]
  | 'k' => some [.number .hour .blanks]
  | 'l' => some [.number .hour12 .blanks]
  | 'm' => some [.number .month .zeros]
  | 'n' => some [.literal ['\n']]
  | 'p' => some [.text .upperHalf]
  | 'q' => some [.number .quarter .nothing]
  | 'r' => some [.number .hour12 .zeros, .literal [':'], .number .minute .zeros, .literal [':'],
      .number .second .zeros, .literal [' '], .text .upperHalf]
  | 's' => some [.number .seconds .nothing]
  | 't' => some [.literal ['\t']]
  | 'u' => some [.number .weekdayFromMonday .nothing]
  | 'v' => some [.number .day .blanks, .literal ['-'], .text .shortMonth, .literal ['-'],
      .number .year .zeros]
  | 'w' => some [.number .weekdayFromSunday .nothing]
  | 'y' => some [.number .yearOfCentury .zeros]
  | 'z' => some [.text .offset]
  | '+' => some [.text .internetFormat]
  | '%' => some [.literal ['%']]
  | _ => none

/-- The number of digits that a digit asks for: fractions come in threes. -/
def fractionWidth? (c : Char) : Option Nat :=
  match c with
  | '3' => some 3
  | '6' => some 6
  | '9' => some 9
  | _ => none

/-- Reads what follows a `%` and any modifier: the items and the rest. -/
def takeField? (s : List Char) : Option (List Item × List Char) :=
  match s with
  | ':' :: ':' :: ':' :: 'z' :: r => some ([.text .offsetHours], r)
  | ':' :: ':' :: 'z' :: r => some ([.text .offsetSeconds], r)
  | ':' :: 'z' :: r => some ([.text .offsetColon], r)
  | '.' :: 'f' :: r => some ([.text .fraction], r)
  | '.' :: d :: 'f' :: r => (fractionWidth? d).map fun n => ([.text (.fractionDigits n true)], r)
  | c :: r =>
    match fractionWidth? c with
    | some n =>
      match r with
      | 'f' :: r => some ([.text (.fractionDigits n false)], r)
      | _ => none
    | none => (letterItems c).map fun items => (items, r)
  | [] => none

def modifier? (c : Char) : Option Fill :=
  match c with
  | '-' => some .nothing
  | '0' => some .zeros
  | '_' => some .blanks
  | _ => none

/-- Reads what follows a `%`.  A fill can be set for a single number only, and the
lenient form `#` exists for the offset only. -/
def takeSpecifier? (s : List Char) : Option (List Item × List Char) :=
  match s with
  | [] => none
  | '#' :: 'z' :: r => some ([.text .offsetLenient], r)
  | '#' :: _ => none
  | c :: r =>
    match modifier? c with
    | none => takeField? s
    | some fill =>
      match takeField? r with
      | some ([.number field _], rest) => some ([.number field fill], rest)
      | _ => none

/-- The items of a pattern; `fuel` bounds its length. -/
def itemsOf? : Nat → List Char → Option (List Item)
  | 0, _ => some []
  | _, [] => some []
  | fuel + 1, '%' :: s =>
    match takeSpecifier? s with
    | some (items, rest) => (itemsOf? fuel rest).map (items ++ ·)
    | none => none
  | fuel + 1, c :: s => (itemsOf? fuel s).map (.literal [c] :: ·)

/-- The items of a pattern, or nothing if it holds an unknown field. -/
def parsePattern? (pattern : List Char) : Option (List Item) :=
  itemsOf? (pattern.length + 1) pattern

/-! ## Filling patterns -/

/-- Two digits, of which a leading zero can be left out or blanked.  The field holds a
number below 256; above 99 its first digit goes on past nine in the order of
characters. -/
def twoDigitText (fill : Fill) (n : Int) : List Char :=
  let n := (n % 256).toNat
  let tens := n / 10
  let first :=
    match fill, tens with
    | .nothing, 0 => []
    | .blanks, 0 => [' ']
    | _, _ => [Char.ofNat ('0'.toNat + tens)]
  first ++ [Char.ofNat ('0'.toNat + n % 10)]

/-- A number filled up to a width, which a sign counts towards. -/
def filledText (fill : Fill) (width : Nat) (signed : Bool) (n : Int) : List Char :=
  let sign := if n < 0 then ['-'] else if signed then ['+'] else []
  let digits := Nat.toDigits 10 n.natAbs
  let width := if signed then width + 1 else width
  let missing := width - (sign.length + digits.length)
  match fill with
  | .nothing => sign ++ digits
  | .zeros => sign ++ List.replicate missing '0' ++ digits
  | .blanks => List.replicate missing ' ' ++ sign ++ digits

/-- A year: four digits, and a sign outside 0 to 9999. -/
def yearFieldText (fill : Fill) (year : Int) : List Char :=
  filledText fill 4 (year < 0 || 9999 < year) year

def oneDigit (n : Nat) : List Char :=
  Nat.toDigits 10 n

def Local.hour12 (l : Local) : Nat :=
  if l.hour % 12 == 0 then 12 else l.hour % 12

def NumberField.write (t : Timestamp) (l : Local) (fill : Fill) : NumberField → List Char
  | .year => yearFieldText fill l.date.year
  | .century => twoDigitText fill (l.date.year / 100)
  | .yearOfCentury => twoDigitText fill (l.date.year % 100)
  | .weekYear => yearFieldText fill (Calendar.isoWeek t.localDay).1
  | .weekYearOfCentury => twoDigitText fill ((Calendar.isoWeek t.localDay).1 % 100)
  | .quarter => oneDigit ((l.date.month - 1) / 3 + 1)
  | .month => twoDigitText fill l.date.month
  | .day => twoDigitText fill l.date.day
  | .weekFromSunday =>
    twoDigitText fill (weekNumber l.date.ordinal (Calendar.weekdayFromSunday t.localDay))
  | .weekFromMonday =>
    twoDigitText fill (weekNumber l.date.ordinal (Calendar.weekdayFromMonday t.localDay))
  | .isoWeek => twoDigitText fill (Calendar.isoWeek t.localDay).2
  | .weekdayFromSunday => oneDigit (Calendar.weekdayFromSunday t.localDay)
  | .weekdayFromMonday => oneDigit (Calendar.weekdayFromMonday t.localDay + 1)
  | .dayOfYear => filledText fill 3 false l.date.ordinal
  | .hour => twoDigitText fill l.hour
  | .hour12 => twoDigitText fill l.hour12
  | .minute => twoDigitText fill l.minute
  | .second => twoDigitText fill l.second
  | .nanosecond => filledText fill 9 false l.nanos
  | .seconds => filledText fill 9 false t.seconds

/-- Writes a text of the timestamp; the lenient offset has none. -/
def TextField.write (t : Timestamp) (l : Local) : TextField → Option (List Char)
  | .shortMonth => some (shortName (monthName l.date.month)).toList
  | .longMonth => some (monthName l.date.month).toList
  | .shortWeekday => some (shortName (weekdayName (weekdayFromMonday t.localDay))).toList
  | .longWeekday => some (weekdayName (weekdayFromMonday t.localDay)).toList
  | .lowerHalf => some (if l.hour < 12 then ['a', 'm'] else ['p', 'm'])
  | .upperHalf => some (if l.hour < 12 then ['A', 'M'] else ['P', 'M'])
  | .fraction => some (fractionText l.nanos)
  | .fractionDigits n point =>
    some ((if point then ['.'] else []) ++ padNat '0' n (l.nanos / Decimal.tenTo (9 - n)))
  | .zoneName => some (offsetName t.offset)
  | .offset => some (offsetText [] t.offset)
  | .offsetColon => some (offsetText [':'] t.offset)
  | .offsetSeconds =>
    let n := t.offset.natAbs
    some ((if t.offset < 0 then '-' else '+') :: twoDigits (n / 3600) ++ ':' ::
      twoDigits (n / 60 % 60) ++ ':' :: twoDigits (n % 60))
  | .offsetHours =>
    some ((if t.offset < 0 then '-' else '+') :: twoDigits (t.offset.natAbs / 3600))
  | .offsetLenient => none
  | .internetFormat => some t.text.toList

def Item.write (t : Timestamp) : Item → Option (List Char)
  | .literal chars => some chars
  | .number field fill => some (field.write t t.toLocal fill)
  | .text field => field.write t t.toLocal

/-- Fills the items from the timestamp, or nothing if one of them cannot be written. -/
def writeItems (t : Timestamp) : List Item → Option (List Char)
  | [] => some []
  | item :: items =>
    match item.write t, writeItems t items with
    | some chars, some rest => some (chars ++ rest)
    | _, _ => none

end Folio.Calendar
