import Folio.Decimal.Numeral
import Folio.Text.Letter
import Folio.Toml.Basic

/-!
# TOML scalars

Strings, numbers and moments at the front of a text.  Each reader gives what it read and
what follows; whether something may follow is for the reader of the line to say.
-/

namespace Folio.Toml

open Calendar (Date daysInMonth)
open Decimal (digitsValue fitsInt64 readFloat?)
open Text (isHexDigit hexValue)

/-- A character that a string or a comment may hold: no control character but the tab. -/
def isPlain (c : Char) : Bool :=
  c == '\t' || (0x20 ≤ c.toNat && c.toNat != 0x7F)

def isGap (c : Char) : Bool :=
  c == ' ' || c == '\t'

def skipGap (cs : List Char) : List Char :=
  cs.dropWhile isGap

def lineEnd? : List Char → Option (List Char)
  | '\n' :: cs => some cs
  | '\r' :: '\n' :: cs => some cs
  | _ => none

/-! ## Strings -/

/-- The character with the number that `count` hexadecimal digits write. -/
def codePoint? (count : Nat) (cs : List Char) : Option (Char × List Char) :=
  let digits := cs.take count
  if digits.length = count ∧ digits.all isHexDigit then
    let code := hexValue digits
    if code.isValidChar then some (Char.ofNat code, cs.drop count) else none
  else none

def escape? : List Char → Option (Char × List Char)
  | 'b' :: cs => some ('\x08', cs)
  | 't' :: cs => some ('\t', cs)
  | 'n' :: cs => some ('\n', cs)
  | 'f' :: cs => some ('\x0c', cs)
  | 'r' :: cs => some ('\r', cs)
  | '"' :: cs => some ('"', cs)
  | '\\' :: cs => some ('\\', cs)
  | 'u' :: cs => codePoint? 4 cs
  | 'U' :: cs => codePoint? 8 cs
  | _ => none

def prepend (c : Char) (found : Option (List Char × List Char)) :
    Option (List Char × List Char) :=
  found.map fun (text, rest) => (c :: text, rest)

/-- The rest of a string in double quotes, in at most `fuel` characters. -/
def basicRest? : (fuel : Nat) → List Char → Option (List Char × List Char)
  | 0, _ => none
  | _ + 1, [] => none
  | _ + 1, '"' :: cs => some ([], cs)
  | fuel + 1, '\\' :: cs => (escape? cs).bind fun (c, rest) => prepend c (basicRest? fuel rest)
  | fuel + 1, c :: cs => if isPlain c then prepend c (basicRest? fuel cs) else none

def literalRest? : List Char → Option (List Char × List Char)
  | [] => none
  | '\'' :: cs => some ([], cs)
  | c :: cs => if isPlain c then prepend c (literalRest? cs) else none

def skipLines : List Char → List Char
  | '\r' :: '\n' :: cs => skipLines cs
  | c :: cs => if isGap c || c == '\n' then skipLines cs else c :: cs
  | [] => []

/-- The rest of a string of several lines in quotes of this kind, in at most `fuel`
characters.  Up to two quotes may stand anywhere, also before the three that close it. -/
def linesRest? (quote : Char) : (fuel : Nat) → List Char → Option (List Char × List Char)
  | 0, _ => none
  | _ + 1, [] => none
  | fuel + 1, c :: cs =>
    if c = quote then
      let run := (c :: cs).takeWhile (· == quote)
      let rest := (c :: cs).drop run.length
      if 3 ≤ run.length then
        let inside := min (run.length - 3) 2
        some (List.replicate inside quote, List.replicate (run.length - 3 - inside) quote ++ rest)
      else (linesRest? quote fuel rest).map fun (text, rest) => (run ++ text, rest)
    else if c = '\\' ∧ quote = '"' then
      match lineEnd? (skipGap cs) with
      | some rest => linesRest? quote fuel (skipLines rest)
      | none => (escape? cs).bind fun (c, rest) => prepend c (linesRest? quote fuel rest)
    else
      match lineEnd? (c :: cs) with
      | some rest => prepend '\n' (linesRest? quote fuel rest)
      | none => if isPlain c then prepend c (linesRest? quote fuel cs) else none

/-- Goes over the line end that may follow the opening quotes. -/
def afterOpening (cs : List Char) : List Char :=
  (lineEnd? cs).getD cs

def lineString? : List Char → Option (List Char × List Char)
  | '"' :: cs => basicRest? (cs.length + 1) cs
  | '\'' :: cs => literalRest? cs
  | _ => none

def string? : List Char → Option (List Char × List Char)
  | '"' :: '"' :: '"' :: cs => linesRest? '"' (cs.length + 1) (afterOpening cs)
  | '\'' :: '\'' :: '\'' :: cs => linesRest? '\'' (cs.length + 1) (afterOpening cs)
  | cs => lineString? cs

/-! ## Numbers -/

def moreDigits? (isDigit : Char → Bool) : List Char → Option (List Char × List Char)
  | '_' :: c :: cs => if isDigit c then prepend c (moreDigits? isDigit cs) else none
  | c :: cs => if isDigit c then prepend c (moreDigits? isDigit cs) else some ([], c :: cs)
  | [] => some ([], [])

/-- A run of digits, where an underscore may stand between two of them: the digits and what
follows. -/
def digits? (isDigit : Char → Bool) : List Char → Option (List Char × List Char)
  | c :: cs => if isDigit c then prepend c (moreDigits? isDigit cs) else none
  | [] => none

def sign : List Char → List Char × List Char
  | '-' :: cs => (['-'], cs)
  | '+' :: cs => ([], cs)
  | cs => ([], cs)

/-- A decimal integer without zeros before it, with its sign. -/
def decimal? (cs : List Char) : Option (List Char × List Char) :=
  let (mark, body) := sign cs
  match body with
  | '0' :: rest => some (mark ++ ['0'], rest)
  | _ => (digits? Char.isDigit body).map fun (digits, rest) => (mark ++ digits, rest)

def valueInBase (base : Nat) (digits : List Char) : Nat :=
  digits.foldl (fun value c => value * base + Text.hexDigitValue c) 0

def isDigitOf (base : Nat) (c : Char) : Bool :=
  isHexDigit c && Text.hexDigitValue c < base

def integerValue? (i : Int) : Option Value :=
  if fitsInt64 i then some (.integer (Int64.ofInt i)) else none

/-- An integer: decimal, or in base 16, 8 or 2 without a sign. -/
def integer? (cs : List Char) : Option (Value × List Char) :=
  let inBase (base : Nat) (body : List Char) : Option (Value × List Char) :=
    (digits? (isDigitOf base) body).bind fun (digits, rest) =>
      (integerValue? (valueInBase base digits)).map (·, rest)
  match cs with
  | '0' :: 'x' :: body => inBase 16 body
  | '0' :: 'o' :: body => inBase 8 body
  | '0' :: 'b' :: body => inBase 2 body
  | _ =>
    (decimal? cs).bind fun (text, rest) =>
      (Decimal.readInt64? text).map fun i => (.integer i, rest)

def fraction? : List Char → Option (List Char × List Char)
  | '.' :: cs => prepend '.' (digits? Char.isDigit cs)
  | _ => none

def exponent? : List Char → Option (List Char × List Char)
  | c :: cs =>
    if c = 'e' ∨ c = 'E' then
      let (mark, body) := sign cs
      (digits? Char.isDigit body).map fun (digits, rest) => ('e' :: mark ++ digits, rest)
    else none
  | [] => none

/-- A float in words: `inf` or `nan`, perhaps with a sign. -/
def wordFloat? (cs : List Char) : Option (Value × List Char) :=
  let (mark, body) := sign cs
  let signed (x : Float) : Value := .float (if mark.isEmpty then x else -x)
  if "inf".toList.isPrefixOf body then some (signed (1.0 / 0.0), body.drop 3)
  else if "nan".toList.isPrefixOf body then some (signed (0.0 / 0.0), body.drop 3)
  else none

/-- A float in digits, which has a fraction or an exponent.  It may not be too large. -/
def digitFloat? (cs : List Char) : Option (Value × List Char) := do
  let (whole, rest) ← decimal? cs
  let (text, rest) ← match fraction? rest with
    | some (fraction, rest) =>
      match exponent? rest with
      | some (exponent, rest) => some (whole ++ fraction ++ exponent, rest)
      | none => some (whole ++ fraction, rest)
    | none => (exponent? rest).map fun (exponent, rest) => (whole ++ exponent, rest)
  let x ← readFloat? text
  if x == 1.0 / 0.0 then none else some (.float x, rest)

/-! ## Moments -/

/-- A number of exactly so many digits, within bounds. -/
def fixed? (width low high : Nat) (cs : List Char) : Option (Nat × List Char) :=
  let digits := cs.take width
  if digits.length = width ∧ digits.all Char.isDigit then
    let n := digitsValue 0 digits
    if low ≤ n ∧ n ≤ high then some (n, cs.drop width) else none
  else none

def mark? (mark : Char) : List Char → Option (List Char)
  | c :: cs => if c = mark then some cs else none
  | [] => none

def date? (cs : List Char) : Option (Date × List Char) := do
  let (year, cs) ← fixed? 4 0 9999 cs
  let cs ← mark? '-' cs
  let (month, cs) ← fixed? 2 1 12 cs
  let cs ← mark? '-' cs
  let (day, cs) ← fixed? 2 1 31 cs
  if day ≤ daysInMonth year month then some (⟨year, month, day⟩, cs) else none

/-- A time of day; the second may be a leap second. -/
def clock? (cs : List Char) : Option (Clock × List Char) := do
  let (hour, cs) ← fixed? 2 0 23 cs
  let cs ← mark? ':' cs
  let (minute, cs) ← fixed? 2 0 59 cs
  let cs ← mark? ':' cs
  let (second, cs) ← fixed? 2 0 60 cs
  match cs with
  | '.' :: rest =>
    let digits := rest.takeWhile Char.isDigit
    if digits.isEmpty then none
    else
      let shown := digits.take 9
      some (⟨hour, minute, second, digitsValue 0 shown * Decimal.tenTo (9 - shown.length)⟩,
        rest.drop digits.length)
  | _ => some (⟨hour, minute, second, 0⟩, cs)

def offset? (cs : List Char) : Option (Offset × List Char) :=
  match cs with
  | c :: rest =>
    if c = 'Z' ∨ c = 'z' then some (.universal, rest)
    else if c = '+' ∨ c = '-' then do
      let (hours, rest) ← fixed? 2 0 23 rest
      let rest ← mark? ':' rest
      let (minutes, rest) ← fixed? 2 0 59 rest
      let count : Int := hours * 60 + minutes
      some (.minutes (if c = '-' then -count else count), rest)
    else none
  | [] => none

def moment? (cs : List Char) : Option (Moment × List Char) :=
  match date? cs with
  | some (date, rest) =>
    let timed := match rest with
      | c :: more => if c = 'T' ∨ c = 't' ∨ c = ' ' then clock? more else none
      | [] => none
    match timed with
    | some (clock, rest) =>
      match offset? rest with
      | some (offset, rest) => some (.both date clock (some offset), rest)
      | none => some (.both date clock none, rest)
    | none => some (.date date, rest)
  | none => (clock? cs).map fun (clock, rest) => (.clock clock, rest)

def scalar? (cs : List Char) : Option (Value × List Char) :=
  if "true".toList.isPrefixOf cs then some (.boolean true, cs.drop 4)
  else if "false".toList.isPrefixOf cs then some (.boolean false, cs.drop 5)
  else
    match moment? cs with
    | some (moment, rest) => some (.moment moment, rest)
    | none => ((digitFloat? cs).or (wordFloat? cs)).or (integer? cs)

end Folio.Toml
