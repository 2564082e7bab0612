import Folio.Markup.Inline
import Folio.Markup.Outline

/-!
# Marked-up text as HTML

Most elements begin on a line of their own, so writing knows whether the last character
written ended a line.
-/

namespace Folio.Markup

open Text (byteLength)

/-! ## Escapes -/

def escapeBodyChar : Char → String
  | '&' => "&amp;"
  | '<' => "&lt;"
  | '>' => "&gt;"
  | c => c.toString

def escapeValueChar : Char → String
  | '"' => "&quot;"
  | '\'' => "&#39;"
  | c => escapeBodyChar c

def escapeBody (s : String) : String :=
  String.join (s.toList.map escapeBodyChar)

def escapeValue (s : String) : String :=
  String.join (s.toList.map escapeValueChar)

/-- A byte as two hexadecimal digits after a percent sign. -/
def percentByte (byte : UInt8) : String :=
  let digits := "0123456789ABCDEF".toList
  String.ofList
    ['%', digits.getD (byte.toNat / 16) '0', digits.getD (byte.toNat % 16) '0']

def escapeAddressChar (c : Char) : String :=
  if c.isAlphanum || "!#$%()*+,-./:;=?@_~^".toList.contains c then c.toString
  else if c = '&' then "&amp;"
  else if c = '\'' then "&#x27;"
  else String.join (c.toString.toUTF8.toList.map percentByte)

def escapeAddress (s : String) : String :=
  String.join (s.toList.map escapeAddressChar)

/-! ## Writing -/

/-- What is written so far, and whether a line has just ended or nothing is written. -/
structure Written where
  text : String
  fresh : Bool
  deriving Repr, Inhabited

namespace Written

def empty : Written :=
  ⟨"", true⟩

def put (s : String) (written : Written) : Written :=
  match s.toList.getLast? with
  | some last => ⟨written.text ++ s, last == '\n'⟩
  | none => written

/-- Writes a piece of HTML on a line of its own. -/
def putFresh (s : String) (written : Written) : Written :=
  (if written.fresh then written else written.put "\n").put s

def putBody (s : String) (written : Written) : Written :=
  written.put (escapeBody s)

end Written

mutual

/-- The text of a piece of running text where no elements may be, with its characters
escaped as in a value. -/
def bareText : Inline → String
  | .plain content => escapeValue content
  | .code content => escapeValue content
  | .softBreak => " "
  | .hardBreak => " "
  | .emphasis content => bareTexts content
  | .strong content => bareTexts content
  | .strike content => bareTexts content
  | .link _ content => bareTexts content
  | .image _ content => bareTexts content
  | .raw content => escapeValue content
termination_by structural x => x

def bareTexts : List Inline → String
  | [] => ""
  | piece :: more => bareText piece ++ bareTexts more
termination_by structural x => x

end

def titleValue (target : Target) : String :=
  if target.title.isEmpty then "" else "\" title=\"" ++ escapeValue target.title

mutual

def writeInline : Inline → Written → Written
  | .plain content, written => written.putBody content
  | .code content, written => written.put ("<code>" ++ escapeBody content ++ "</code>")
  | .softBreak, written => written.put "\n"
  | .hardBreak, written => written.put "<br />\n"
  | .emphasis content, written => (writeInlines content (written.put "<em>")).put "</em>"
  | .strong content, written => (writeInlines content (written.put "<strong>")).put "</strong>"
  | .strike content, written => (writeInlines content (written.put "<del>")).put "</del>"
  | .link target content, written =>
    (writeInlines content
      (written.put
        ("<a href=\"" ++ escapeAddress target.address ++ titleValue target ++ "\">"))).put "</a>"
  | .image target content, written =>
    written.put
      ("<img src=\"" ++ escapeAddress target.address ++ "\" alt=\"" ++ bareTexts content ++
        titleValue target ++ "\" />")
  | .raw content, written => written.put content
termination_by structural x => x

def writeInlines : List Inline → Written → Written
  | [], written => written
  | piece :: more, written => writeInlines more (writeInline piece written)
termination_by structural x => x

end

def writeTask (checked : Bool) (written : Written) : Written :=
  written.put
    (if checked then "<input disabled=\"\" type=\"checkbox\" checked=\"\"/>\n"
    else "<input disabled=\"\" type=\"checkbox\"/>\n")

def writeText (definitions : Definitions) (task : Option Bool) (source : Source)
    (written : Written) : Written :=
  let boxed := match task with
    | some checked => writeTask checked written
    | none => written
  writeInlines (readInlines definitions source) boxed

def alignmentValue : Alignment → String
  | .unset => ""
  | .left => " style=\"text-align: left\""
  | .center => " style=\"text-align: center\""
  | .right => " style=\"text-align: right\""

def writeCells (definitions : Definitions) (name : String) (columns : List Alignment)
    (row : List (List Char)) (written : Written) : Written :=
  (columns.zip row).foldl
    (fun written (alignment, source) =>
      (writeText definitions none ⟨source, [], true⟩
        (written.put ("<" ++ name ++ alignmentValue alignment ++ ">"))).put ("</" ++ name ++ ">"))
    written

def listTag : Option Nat → String
  | none => "<ul>\n"
  | some 1 => "<ol>\n"
  | some start => "<ol start=\"" ++ toString start ++ "\">\n"

mutual

/-- Writes a block; in a tight list, paragraphs are written without an element. -/
def writeBlock (definitions : Definitions) : (tight : Bool) → Block → Written → Written
  | tight, .paragraph task source, written =>
    if tight then writeText definitions task source written
    else (writeText definitions task source (written.putFresh "<p>")).put "</p>\n"
  | _, .heading level task source, written =>
    let name := "h" ++ toString level
    (writeText definitions task source (written.putFresh ("<" ++ name ++ ">"))).put
      ("</" ++ name ++ ">\n")
  | _, .rule, written => written.putFresh "<hr />\n"
  | _, .code label content, written =>
    let language := (label.splitOn " ").headD ""
    let tag :=
      if language.isEmpty then "<pre><code>"
      else "<pre><code class=\"language-" ++ escapeValue language ++ "\">"
    ((written.putFresh tag).putBody content).put "</code></pre>\n"
  | _, .raw content, written => written.put content
  | _, .quote content, written =>
    (writeBlocks definitions false content (written.putFresh "<blockquote>\n")).put
      "</blockquote>\n"
  | _, .list start tight items, written =>
    (writeItems definitions tight items (written.putFresh (listTag start))).put
      (if start.isSome then "</ol>\n" else "</ul>\n")
  | _, .task checked, written => writeTask checked written
  | _, .table columns head rows, written =>
    let headed := (writeCells definitions "th" columns head
      (written.put "<table><thead><tr>")).put "</tr></thead><tbody>\n"
    (rows.foldl
      (fun written row =>
        (writeCells definitions "td" columns row (written.put "<tr>")).put "</tr>\n")
      headed).put "</tbody></table>\n"
termination_by structural _ x => x

def writeBlocks (definitions : Definitions) (tight : Bool) : List Block → Written → Written
  | [], written => written
  | block :: more, written =>
    writeBlocks definitions tight more (writeBlock definitions tight block written)
termination_by structural x => x

def writeItems (definitions : Definitions) (tight : Bool) : List (List Block) → Written → Written
  | [], written => written
  | item :: more, written =>
    writeItems definitions tight more
      ((writeBlocks definitions tight item (written.putFresh "<li>")).put "</li>\n")
termination_by structural x => x

end

def toHtml (text : String) : String :=
  let (blocks, definitions) := outlineOf text.toList
  (writeBlocks definitions false blocks .empty).text

end Folio.Markup
