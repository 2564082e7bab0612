import Folio.Markup.Emphasis
import Folio.Markup.Link
import Folio.Markup.RawHtml
import Folio.Text.Blank

/-!
# Running text

Running text is read from left to right.  Code, addresses and HTML in angle brackets,
references and backslashes are settled on the way; a closing bracket settles whether the
text since the last open bracket is a link; emphasis is found at the end, and before that
inside each link.  Spaces at the very end of a text belong to the marks before them, if there
are any, and go when these mean something; they are kept otherwise.
-/

namespace Folio.Markup

open Text (isBlank isPunctuation isAsciiPunctuation)

/-- What the text read so far is made of. -/
inductive Token where
  | piece (piece : Piece)
  /-- Marks that turned out to stand for themselves. -/
  | literal (marks : String)
  /-- An open bracket of a link or an image, with the text after it.  No link begins at a
  bracket that is not active, for links do not hold links. -/
  | bracket (image active : Bool) (after : List Char)
  deriving Repr, Inhabited

namespace Token

def plain (cs : List Char) : Token :=
  .piece (.inline (.plain (String.ofList cs)))

def settled (content : Inline) : Token :=
  .piece (.inline content)

def openMarks (image : Bool) : String :=
  if image then "![" else "["

/-- The piece that a token is; a bracket that nothing closed stands for itself. -/
def toPiece : Token → Piece
  | .piece found => found
  | .literal marks => .inline (.plain marks)
  | .bracket image _ _ => .inline (.plain (openMarks image))

def isRun : Token → Bool
  | .piece (.run _) => true
  | _ => false

/-- The token comes from marks, whether they mean anything or not. -/
def isMarked : Token → Bool
  | .piece (.inline content) =>
    match content with
    | .code _ | .link .. | .image .. | .raw _ => true
    | _ => false
  | .piece (.run _) => true
  | .piece .escapedEnd => false
  | .literal _ => true
  | .bracket .. => true

/-- A bracket before a link: no link can begin there. -/
def deactivate : Token → Token
  | .bracket false _ after => .bracket false false after
  | token => token

end Token

/-- The tokens, latest first, as running text.  `marked` says that there are marks in it. -/
def settle (marked : Bool) (tokens : List Token) : List Inline :=
  emphasize marked (tokens.reverse.map Token.toPiece)

def settleInside (tokens : List Token) : List Inline :=
  settle (tokens.any Token.isRun) tokens

/-! ## What text is read piece by piece -/

def isSpecial (c : Char) : Bool :=
  isSpace c || c == '\\' || c == '\x60' || c == '<' || c == '&' || c == '*' || c == '_' ||
    c == '~' || c == '[' || c == ']' || c == '!' || c == '\x00'

/-- The code up to a run of exactly `length` backticks, and what follows that. -/
def codeUntil? (length : Nat) : (fuel : Nat) → List Char → Option (List Char × List Char)
  | 0, _ => none
  | fuel + 1, cs =>
    let content := cs.takeWhile (· != '\x60')
    let run := (cs.drop content.length).takeWhile (· == '\x60')
    let rest := cs.drop (content.length + run.length)
    if run.isEmpty then none
    else if run.length = length then some (content, rest)
    else (codeUntil? length fuel rest).map fun (more, rest) => (content ++ run ++ more, rest)

/-- The content of code: its line ends are spaces, and one space at both ends does not
belong to it unless it is all spaces. -/
def codeText (cs : List Char) : List Char :=
  let flat := cs.map fun c => if c = '\n' then ' ' else c
  if flat.head? = some ' ' ∧ flat.getLast? = some ' ' ∧ !flat.all (· == ' ') then
    flat.tail.dropLast
  else flat

/-- The address in angle brackets at the front, whose `<` has been read, and what follows
it: a scheme of two to 32 characters, a colon, and no space. -/
def schemeAddress? (cs : List Char) : Option (List Char × List Char) :=
  let scheme := cs.takeWhile fun c => c.isAlphanum || c == '+' || c == '-' || c == '.'
  let address := cs.takeWhile fun c => 0x20 < c.toNat && c != '<' && c != '>'
  if (scheme.head?.map Char.isAlpha).getD false ∧ 2 ≤ scheme.length ∧ scheme.length ≤ 32 ∧
      cs[scheme.length]? = some ':' ∧ cs[address.length]? = some '>' then
    some (address, cs.drop (address.length + 1))
  else none

/-- A character of the part of a mail address before the `@`. -/
def isMailChar (c : Char) : Bool :=
  c.isAlphanum || ".!#$%&'*+/=?^_\x60\x7b|\x7d~-".toList.contains c

/-- A part of a domain: 1 to 63 letters, digits and hyphens, without a hyphen at the ends. -/
def isDomainLabel (cs : List Char) : Bool :=
  1 ≤ cs.length && cs.length ≤ 63 && cs.head? != some '-' && cs.getLast? != some '-'

/-- The mail address in angle brackets at the front, whose `<` has been read, and what
follows it. -/
def mailAddress? (cs : List Char) : Option (List Char × List Char) :=
  let name := cs.takeWhile isMailChar
  match cs.drop name.length with
  | '@' :: host =>
    let domain := host.takeWhile fun c => c.isAlphanum || c == '-' || c == '.'
    match host.drop domain.length with
    | '>' :: rest =>
      if name ≠ [] ∧ ((String.ofList domain).splitOn ".").all (fun l => isDomainLabel l.toList) then
        some (name ++ '@' :: domain, rest)
      else none
    | _ => none
  | _ => none

/-- The run of marks at the front, between the characters `previous` and `next?`.  Asterisks
and pairs of tildes may stand inside a word, underscores may not, and a single tilde only
after another tilde. -/
def runOf (mark : Char) (length : Nat) (previous : Option Char) (next? : Option Char)
    (tail : List Char) : Run :=
  let pair := mark == '~' && length > 1
  let opens :=
    match next?, previous with
    | none, _ => false
    | some next, none => !isBlank next
    | some next, some before =>
      !isBlank next &&
        (((mark == '*' || (mark == '~' && before == '~')) && !isPunctuation next) || pair ||
          isBlank before || isPunctuation before)
  let closes :=
    match previous, next? with
    | none, _ => false
    | some before, none => !isBlank before
    | some before, some next =>
      !isBlank before &&
        (((mark == '*' || pair) && !isPunctuation before) || (mark == '~' && before == '~') ||
          isBlank next || isPunctuation next)
  ⟨mark, length, length, opens, closes, tail⟩

/-- The text after marks, without spaces that are all there is: these belong to the marks. -/
def withoutTail (rest : List Char) : List Char :=
  if isBlankLine rest then [] else rest

/-- What a reference after the bracket names: the target and what follows, if it has one.  A
backslash before the reference changes nothing.  The text in the brackets names a target only
if no spaces belong to the closing bracket. -/
def referenced? (definitions : Definitions) (between rest : List Char) :
    Option (Target × List Char) :=
  let reference := match rest with
    | '\\' :: '[' :: more => '[' :: more
    | _ => rest
  match label? reference with
  | some (label, rest) => (definitions.lookup (normalLabel label)).map (·, withoutTail rest)
  | none =>
    match label? ('[' :: between ++ [']']) with
    | some (label, []) =>
      let target? := definitions.lookup (normalLabel label)
      match reference with
      | '[' :: ']' :: after => target?.map (·, withoutTail after)
      | _ => if rest = [] ∨ !isBlankLine rest then target?.map (·, rest) else none
    | _ => none

/-- The closing bracket: the tokens with the link that it settles, or with both brackets as
text, and what follows.  `rest` is the text after the bracket. -/
def closeBracket (definitions : Definitions) (rest : List Char) (tokens : List Token) :
    List Token × List Char :=
  let isSettled : Token → Bool
    | .bracket .. => false
    | _ => true
  let inside := tokens.takeWhile isSettled
  match tokens.drop inside.length with
  | .bracket image active after :: before =>
    let literal := (.literal "]" :: inside ++ .literal (Token.openMarks image) :: before, rest)
    if !active then literal
    else
      let between := after.take (after.length - rest.length - 1)
      match (inlineTarget? rest).or (referenced? definitions between rest) with
      | some (target, rest) =>
        let content := settleInside inside
        if image then (.settled (.image target content) :: before, rest)
        else (.settled (.link target content) :: before.map Token.deactivate, rest)
      | none => literal
  | _ => (.literal "]" :: tokens, rest)

/-- What follows the end of a line: without the indentation of the next line, which counts only
if there is nothing else on it. -/
def nextLine (rest : List Char) : List Char :=
  if isBlankStart rest then rest else rest.dropWhile isIndentation

/-- The break at the end of a line, after `spaces` spaces. -/
def lineBreak (spaces : Nat) : Inline :=
  if 2 ≤ spaces then .hardBreak else .softBreak

/-- The last of the characters, if there is one, else `previous`. -/
def lastOr (previous : Option Char) (cs : List Char) : Option Char :=
  cs.getLast?.or previous

/-- The text with the margins of its lines after the first in front of them. -/
def withMargins : (margins : List (List Char)) → List Char → List Char
  | _, [] => []
  | [], cs => cs
  | margin :: margins, c :: cs =>
    if c = '\n' then c :: margin ++ withMargins margins cs
    else c :: withMargins (margin :: margins) cs

/-- What is left of the text after `count` characters of it and of its margins. -/
def dropWithMargins : (count : Nat) → (margins : List (List Char)) → List Char → List Char
  | 0, _, cs => cs
  | _, _, [] => []
  | count, [], cs => cs.drop count
  | count + 1, margin :: margins, c :: cs =>
    if c = '\n' then
      if count ≤ margin.length then nextLine cs
      else dropWithMargins (count - margin.length) margins cs
    else dropWithMargins count (margin :: margins) cs

/-- The text as it is written where backslashes mean nothing. -/
def Source.verbatim (source : Source) (cs : List Char) : String :=
  String.ofList
    (if source.inCell then cs.flatMap fun c => if c = '|' then ['\\', c] else [c] else cs)

/-- The piece of HTML at the front of the text, whose `<` has been read, and what follows it.
A tag does not hold what stands in the margins of its lines, but a comment or the like does. -/
def html? (source : Source) (cs : List Char) : Option (String × List Char) :=
  match afterTag? cs with
  | some rest => some ("<" ++ source.verbatim (cs.take (cs.length - rest.length)), rest)
  | none =>
    let margins := source.margins.drop (source.margins.length - cs.count '\n')
    let written := withMargins margins cs
    (afterSpecial? written).map fun rest =>
      let count := written.length - rest.length
      ("<" ++ source.verbatim (written.take count), dropWithMargins count margins cs)

/-- Reads what begins at the front of the text: the tokens, latest first, and what follows. -/
def readToken (definitions : Definitions) (source : Source) (previous : Option Char)
    (tokens : List Token) (c : Char) (cs : List Char) : List Token × List Char :=
  match c with
  | '\\' =>
    match cs with
    | '\n' :: rest => (.piece .escapedEnd :: tokens, nextLine rest)
    | d :: rest =>
      if isAsciiPunctuation d then (.plain [d] :: tokens, rest)
      else (.plain ['\\'] :: tokens, cs)
    | [] => (.plain ['\\'] :: tokens, [])
  | '\x60' =>
    let run := (c :: cs).takeWhile (· == '\x60')
    let after := (c :: cs).drop run.length
    match codeUntil? run.length (after.length + 1) after with
    | some (content, rest) =>
      (.settled (.code (String.ofList (codeText content))) :: tokens, withoutTail rest)
    | none => (.literal (String.ofList run) :: tokens, after)
  | '<' =>
    match schemeAddress? cs, mailAddress? cs, html? source cs with
    | some (address, rest), _, _ =>
      let text := source.verbatim address
      (.settled (.link ⟨text, ""⟩ [.plain text]) :: tokens, rest)
    | none, some (address, rest), _ =>
      let text := String.ofList address
      (.settled (.link ⟨"mailto:" ++ text, ""⟩ [.plain text]) :: tokens, rest)
    | none, none, some (html, rest) => (.settled (.raw html) :: tokens, rest)
    | none, none, none => (.literal "<" :: tokens, cs)
  | '&' =>
    match readEntity? cs with
    | some (meant, rest) => (.plain meant :: tokens, withoutTail rest)
    | none => (.plain [c] :: tokens, cs)
  | '[' => (.bracket false true cs :: tokens, cs)
  | ']' => closeBracket definitions cs tokens
  | '!' =>
    match cs with
    | '[' :: rest => (.bracket true true rest :: tokens, rest)
    | _ => (.plain [c] :: tokens, cs)
  | '\x00' => (.plain ['\ufffd'] :: tokens, withoutTail cs)
  | _ =>
    if c = '*' ∨ c = '_' ∨ c = '~' then
      let run := (c :: cs).takeWhile (· == c)
      let rest := (c :: cs).drop run.length
      let tail := if isBlankLine rest then rest else []
      let found := runOf c run.length previous rest.head? tail
      if (found.opens || found.closes) && (c != '~' || run.length ≤ 2) then
        (.piece (.run found) :: tokens, withoutTail rest)
      else (.plain run :: tokens, rest)
    else if isSpace c then
      let spaces := (c :: cs).takeWhile isLineSpace
      match (c :: cs).drop spaces.length with
      | '\n' :: rest =>
        (.settled (lineBreak spaces.length) :: tokens, nextLine rest)
      | rest => (.plain spaces :: tokens, rest)
    else
      let text := c :: cs.takeWhile fun d => !isSpecial d
      (.plain text :: tokens, cs.drop (text.length - 1))

/-- Reads the text, which follows the character `previous`, in at most `fuel` steps.  It is what
is left of `source`. -/
def readTokens (definitions : Definitions) (source : Source) :
    (fuel : Nat) → (previous : Option Char) → List Token → List Char → List Token
  | 0, _, tokens, _ => tokens
  | _ + 1, _, tokens, [] => tokens
  | fuel + 1, previous, tokens, c :: cs =>
    let (tokens, rest) := readToken definitions source previous tokens c cs
    let read := (c :: cs).take (cs.length + 1 - rest.length)
    readTokens definitions source fuel (lastOr previous read) tokens rest

def readInlines (definitions : Definitions) (source : Source) : List Inline :=
  let tokens := readTokens definitions source (source.text.length + 1) (some '\n') [] source.text
  settle (tokens.any Token.isMarked) tokens

end Folio.Markup
