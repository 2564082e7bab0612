import Folio.Calendar.Timestamp
import Folio.Decimal.Layout
import Folio.Text.Letter

/-!
# Locales

A language tag decides how floats and dates are shown to readers.  Without one the
culture-neutral forms are used.
-/

namespace Folio

open Calendar (Timestamp Date Local twoDigits yearText offsetText)

/-- A language tag such as `en-US`; the empty tag is culture-neutral. -/
structure Locale where
  lang : String
  deriving DecidableEq, Repr

/-- How a date is set out for readers. -/
inductive DateStyle where
  /-- Month, day and year between slashes. -/
  | monthFirst
  /-- Year, month and day between slashes. -/
  | yearFirst
  /-- Day, month and year between slashes. -/
  | dayFirst
  /-- Day, month and year between dots. -/
  | dotted
  /-- Year, month and day between hyphens, and the offset. -/
  | neutral
  deriving DecidableEq, Repr

namespace Locale

def invariant : Locale := ⟨""⟩

/-- The language of the tag: what stands before the first `-` or `_`, in lower case. -/
def language (l : Locale) : String :=
  Text.lowerAscii (String.ofList (l.lang.toList.takeWhile fun c => c != '-' && c != '_'))

def commaLanguages : List String :=
  ["cs", "da", "de", "es", "fi", "fr", "it", "nb", "nl", "pl", "pt", "ru", "sv", "tr"]

def decimalSeparator (l : Locale) : Char :=
  if commaLanguages.contains l.language then ',' else '.'

/-- Puts the locale's separator in place of the points of a number. -/
def withSeparator (l : Locale) (digits : List Char) : List Char :=
  digits.map fun c => if c = '.' then l.decimalSeparator else c

def floatText (l : Locale) (x : Float) : String :=
  String.ofList (l.withSeparator (Decimal.Layout.plain.write x).toList)

/-- How dates are set out in this locale.  American English is told by its whole tag,
every other locale by its language. -/
def dateStyle (l : Locale) : DateStyle :=
  if Text.eqIgnoreAsciiCase l.lang "en-US" then .monthFirst
  else if ["ja", "zh", "ko"].contains l.language then .yearFirst
  else if ["en", "fr", "es", "it", "pt"].contains l.language then .dayFirst
  else if ["de", "ru", "pl", "cs", "fi", "nb", "da"].contains l.language then .dotted
  else .neutral

end Locale

def DateStyle.dateText (style : DateStyle) (d : Date) : List Char :=
  let year := yearText d.year
  let month := twoDigits d.month
  let day := twoDigits d.day
  match style with
  | .monthFirst => month ++ '/' :: day ++ '/' :: year
  | .yearFirst => year ++ '/' :: month ++ '/' :: day
  | .dayFirst => day ++ '/' :: month ++ '/' :: year
  | .dotted => day ++ '.' :: month ++ '.' :: year
  | .neutral => year ++ '-' :: month ++ '-' :: day

/-- The text of a timestamp: date and time of day, and the offset where no locale says
how dates are written. -/
def Locale.timestampText (l : Locale) (t : Timestamp) : String :=
  let shown := t.toLocal
  let offset :=
    match l.dateStyle with
    | .neutral => ' ' :: offsetText [':'] t.offset
    | _ => []
  String.ofList (l.dateStyle.dateText shown.date ++ ' ' :: shown.clockText ++ offset)

end Folio
