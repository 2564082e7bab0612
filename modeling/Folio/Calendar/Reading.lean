import Folio.Calendar.Timestamp
import Folio.Decimal.Numeral
import Folio.Text.Blank

/-!
# Dates read from text

Headers and templates write dates in several forms.  The Internet date format is tried
first; then the `forms` in order, each a row of fields.  A date without an offset is
universal time, and one without a time of day is midnight.

Between fields the forms are lenient: a blank in a form stands for any number of
blanks, also none, and blanks may stand before any number and before an offset.
-/

namespace Folio.Calendar

open Folio.Text (isBlank trimStartChars trimChars)
open Folio.Decimal (digitsValue digitValue)

inductive FormField where
  /-- Up to four digits, or a sign and any number of digits. -/
  | year
  /-- One or two digits, as for the others below. -/
  | month
  | day
  | hour
  | minute
  | second
  /-- Exactly this character. -/
  | mark (c : Char)
  /-- Any number of blanks. -/
  | blanks
  /-- A sign, two digits of hours, two of minutes. -/
  | offset
  deriving DecidableEq, Repr

structure Parts where
  year : Int
  month : Nat
  day : Nat
  hour : Nat
  minute : Nat
  second : Nat
  nanos : Nat
  offset : Int
  deriving DecidableEq, Repr

def Parts.none : Parts := ⟨0, 0, 0, 0, 0, 0, 0, 0⟩

/-- The timestamp of the parts, if the calendar has their date and the clock their
time. -/
def Parts.toTimestamp? (p : Parts) : Option Timestamp :=
  match Date.mk? p.year p.month p.day with
  | some date => Local.toTimestamp? ⟨date, p.hour, p.minute, p.second, p.nanos⟩ p.offset
  | Option.none => Option.none

/-- Reads at least one and at most `width` digits: their value and the rest. -/
def takeNumber? (width : Nat) (s : List Char) : Option (Nat × List Char) :=
  let digits := (s.take width).takeWhile Char.isDigit
  if digits.isEmpty then Option.none
  else some (digitsValue 0 digits, s.drop digits.length)

def takeFixed? (width : Nat) (s : List Char) : Option (Nat × List Char) :=
  match takeNumber? width s with
  | some (n, rest) => if s.length - rest.length == width then some (n, rest) else Option.none
  | Option.none => Option.none

/-- Reads a year: with a sign as many digits as there are, without one up to four. -/
def takeYear? (s : List Char) : Option (Int × List Char) :=
  match s with
  | '-' :: rest => (takeNumber? rest.length rest).map fun (n, r) => (-(n : Int), r)
  | '+' :: rest => (takeNumber? rest.length rest).map fun (n, r) => ((n : Int), r)
  | _ => (takeNumber? 4 s).map fun (n, r) => ((n : Int), r)

/-- Reads an offset: a sign (the minus sign of typography too), two digits of hours,
what `separator` skips, and two digits of minutes below sixty. -/
def takeOffset? (separator : List Char → Option (List Char)) (s : List Char) :
    Option (Int × List Char) := do
  let (negative, s) ← match s with
    | '+' :: r => some (false, r)
    | '-' :: r => some (true, r)
    | '\u2212' :: r => some (true, r)
    | _ => Option.none
  let (hours, s) ← takeFixed? 2 s
  let s ← separator s
  let (minutes, s) ← takeFixed? 2 s
  if minutes < 60 then
    let offset : Int := hours * 3600 + minutes * 60
    some (if negative then -offset else offset, s)
  else Option.none

def skipColonsAndBlanks (s : List Char) : Option (List Char) :=
  some (s.dropWhile fun c => c == ':' || isBlank c)

def skipMark (c : Char) : List Char → Option (List Char)
  | d :: r => if d == c then some r else Option.none
  | [] => Option.none

def FormField.take? (field : FormField) (p : Parts) (s : List Char) :
    Option (Parts × List Char) :=
  let number := takeNumber? 2 (trimStartChars s)
  match field with
  | .year => (takeYear? (trimStartChars s)).map fun (n, r) => ({ p with year := n }, r)
  | .month => number.map fun (n, r) => ({ p with month := n }, r)
  | .day => number.map fun (n, r) => ({ p with day := n }, r)
  | .hour => number.map fun (n, r) => ({ p with hour := n }, r)
  | .minute => number.map fun (n, r) => ({ p with minute := n }, r)
  | .second => number.map fun (n, r) => ({ p with second := n }, r)
  | .mark c => (skipMark c s).map fun r => (p, r)
  | .blanks => some (p, trimStartChars s)
  | .offset =>
    (takeOffset? skipColonsAndBlanks (trimStartChars s)).map fun (n, r) =>
      ({ p with offset := n }, r)

def takeForm? : List FormField → Parts → List Char → Option (Parts × List Char)
  | [], p, s => some (p, s)
  | field :: fields, p, s =>
    match field.take? p s with
    | some (p, r) => takeForm? fields p r
    | Option.none => Option.none

def readForm? (form : List FormField) (s : List Char) : Option Timestamp :=
  match takeForm? form .none s with
  | some (p, []) => p.toTimestamp?
  | _ => Option.none

/-! ## The forms -/

def dateForm (c : Char) : List FormField :=
  [.year, .mark c, .month, .mark c, .day]

def clockForm : List FormField :=
  [.hour, .mark ':', .minute]

def clockSecondForm : List FormField :=
  clockForm ++ [.mark ':', .second]

/-- The accepted forms, in the order in which they are tried. -/
def forms : List (List FormField) :=
  [ dateForm '-' ++ .blanks :: clockSecondForm ++ [.blanks, .offset],
    dateForm '-' ++ .blanks :: clockSecondForm ++ [.offset],
    dateForm '/' ++ .blanks :: clockSecondForm ++ [.blanks, .offset],
    dateForm '-' ++ .blanks :: clockForm ++ [.blanks, .offset],
    dateForm '/' ++ .blanks :: clockForm ++ [.blanks, .offset],
    dateForm '-' ++ .mark 'T' :: clockSecondForm,
    dateForm '-' ++ .blanks :: clockSecondForm,
    dateForm '/' ++ .blanks :: clockSecondForm,
    dateForm '-' ++ .blanks :: clockForm,
    dateForm '/' ++ .blanks :: clockForm,
    dateForm '-',
    dateForm '/' ]

/-! ## The Internet date format -/

/-- Reads a fraction of a second: digits after a point, of which nine count. -/
def takeFraction? (s : List Char) : Option (Nat × List Char) :=
  match s with
  | '.' :: rest =>
    let digits := rest.takeWhile Char.isDigit
    if digits.isEmpty then Option.none
    else
      let shown := digits.take 9
      some (digitsValue 0 shown * Decimal.tenTo (9 - shown.length), rest.drop digits.length)
  | _ => some (0, s)

/-- Reads the offset of the Internet date format: `Z` in either case, or hours and
minutes with a colon. -/
def takeInternetOffset? (s : List Char) : Option (Int × List Char) :=
  match s with
  | 'Z' :: r => some (0, r)
  | 'z' :: r => some (0, r)
  | _ => takeOffset? (skipMark ':') s

/-- The whole text is a timestamp in the Internet date format.  A `T` in either case
or one space stands between date and time. -/
def readInternet? (s : List Char) : Option Timestamp := do
  let (year, s) ← takeFixed? 4 s
  let s ← skipMark '-' s
  let (month, s) ← takeFixed? 2 s
  let s ← skipMark '-' s
  let (day, s) ← takeFixed? 2 s
  let s ← match s with
    | c :: r => if c == 'T' || c == 't' || c == ' ' then some r else Option.none
    | [] => Option.none
  let (hour, s) ← takeFixed? 2 s
  let s ← skipMark ':' s
  let (minute, s) ← takeFixed? 2 s
  let s ← skipMark ':' s
  let (second, s) ← takeFixed? 2 s
  let (nanos, s) ← takeFraction? s
  let (offset, s) ← takeInternetOffset? s
  match s with
  | [] => Parts.toTimestamp? ⟨year, month, day, hour, minute, second, nanos, offset⟩
  | _ :: _ => Option.none

/-- The timestamp that the text writes in one of the accepted forms; blanks around it
do not count. -/
def readTimestamp? (text : List Char) : Option Timestamp :=
  let s := trimChars text
  match readInternet? s with
  | some t => some t
  | Option.none => forms.findSome? fun form => readForm? form s

/-- The offset that a timezone setting writes: a sign, two digits of hours, colons and
blanks, two digits of minutes.  There has to be a colon somewhere, and an offset is less
than a day; what follows the minutes does not count. -/
def readOffset? (text : List Char) : Option Int :=
  let s := trimChars text
  if s.contains ':' then
    match takeOffset? skipColonsAndBlanks s with
    | some (offset, _) => if offset.natAbs < 86400 then some offset else Option.none
    | Option.none => Option.none
  else Option.none

end Folio.Calendar
