import Folio.Calendar.Pattern
import Folio.Calendar.Reading
import Folio.Decimal.Binary
import Folio.Decimal.Numeral
import Folio.Expr.Basic
import Folio.Fault
import Folio.Locale
import Folio.Text.Blank

/-!
# Writing values by a pattern

`format value pattern` writes a date by a date pattern and a number by a pattern of
zeros: those before the point set the least width, those after it the places.
-/

namespace Folio.Builtin

open Calendar (Timestamp parsePattern? writeItems readTimestamp?)

/-- A pattern of zeros. -/
structure NumberPattern where
  /-- The least number of digits before the point. -/
  width : Nat
  /-- The number of digits after it. -/
  places : Nat
  deriving DecidableEq, Repr

namespace NumberPattern

/-- Reads a pattern: zeros, and a point and zeros after them; not nothing at all. -/
def parse? (pattern : List Char) : Option NumberPattern :=
  let whole := pattern.takeWhile (· != '.')
  let rest := pattern.dropWhile (· != '.')
  let decimals := rest.drop 1
  if pattern.isEmpty || whole.any (· != '0') || decimals.any (· != '0') then none
  else some ⟨whole.length, decimals.length⟩

/-- The number by the pattern.  A number that is rounded to zero has no sign. -/
def text (p : NumberPattern) (locale : Locale) (x : Float) : String :=
  let digits := Decimal.magnitudeText x p.places
  let whole := digits.takeWhile (· != '.')
  let showsSign := Decimal.isNegative x && digits.any fun c => c.isDigit && c != '0'
  let sign := if showsSign then ['-'] else []
  String.ofList
    (sign ++ List.replicate (p.width - whole.length) '0' ++ locale.withSeparator digits)

/-- Writes the number, unless the pattern asks for more places than can be written. -/
def write (p : NumberPattern) (locale : Locale) (x : Float) : Except Fault String :=
  if Decimal.maxPlaces < p.places then .error (.call (.tooManyPlaces p.places)) else .ok (p.text locale x)

end NumberPattern

def formatNumber (locale : Locale) (pattern : String) (x : Float) : Except Fault String :=
  match NumberPattern.parse? pattern.toList with
  | some p => p.write locale x
  | none => .error (.call (.numberPattern pattern))

def formatTimestamp (pattern : String) (t : Timestamp) : Except Fault String :=
  match parsePattern? pattern.toList with
  | none => .error (.call (.datePattern pattern))
  | some items =>
    match writeItems t items with
    | some text => .ok (String.ofList text)
    | none => .error (.call (.unwritableDatePattern pattern))

/-- A string by a pattern: as the number that it writes if the pattern is for numbers, else
as the date that it writes, else unchanged. -/
def formatString (locale : Locale) (pattern s : String) : Except Fault String :=
  match Decimal.readFloat? (Text.trimChars s.toList), NumberPattern.parse? pattern.toList with
  | some x, some p => p.write locale x
  | _, _ =>
    match readTimestamp? s.toList with
    | some t => formatTimestamp pattern t
    | none => .ok s

def formatBy (locale : Locale) (pattern : String) : Value → Except Fault String
  | .null => .ok ""
  | .date t => formatTimestamp pattern t
  | .int i => formatNumber locale pattern (Float.ofInt i.toInt)
  | .float x => formatNumber locale pattern x
  | .str s => formatString locale pattern s
  | .bool b => .ok (if b then "true" else "false")
  | v => .error (.call (.cannotFormat v.typeName))

def formatPlain (locale : Locale) : Value → Except Fault String
  | .null => .ok ""
  | .date t => .ok (locale.timestampText t)
  | .int i => .ok (toString i.toInt)
  | .float x => .ok (locale.floatText x)
  | .str s => .ok s
  | .bool b => .ok (if b then "true" else "false")
  | v => .error (.call (.cannotFormat v.typeName))

def format (locale : Locale) (args : List Value) : Except Fault Value :=
  match args with
  | [v] => (formatPlain locale v).map .str
  | [v, .str pattern] => (formatBy locale pattern v).map .str
  | [_, other] => .error (.call (.patternNotString other.typeName))
  | args => .error (.call (.formatArguments args.length))

end Folio.Builtin
