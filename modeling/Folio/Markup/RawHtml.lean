import Folio.Markup.Line

/-!
# Markup of HTML in a text

Where a text holds a tag, a comment or another piece of HTML, that piece stands for
itself.  A line that begins with one begins a block of it.
-/

namespace Folio.Markup

/-- What follows the characters `mark`, if the text begins with them. -/
def after? (mark : String) (cs : List Char) : Option (List Char) :=
  if mark.toList.isPrefixOf cs then some (cs.drop mark.length) else none

/-- What follows the first occurrence of the characters `mark`. -/
def afterFirst? (mark : List Char) : List Char → Option (List Char)
  | [] => if mark.isEmpty then some [] else none
  | c :: cs =>
    if mark.isPrefixOf (c :: cs) then some ((c :: cs).drop mark.length)
    else afterFirst? mark cs

/-! ## Tags -/

/-- The name of a tag: a letter, and then letters, digits and hyphens. -/
def tagName? (cs : List Char) : Option (List Char) :=
  match cs with
  | c :: rest => if c.isAlpha then some (rest.dropWhile fun d => d.isAlphanum || d == '-') else none
  | [] => none

/-- The value of an attribute: quoted, or characters up to a space or the end of the line. -/
def attributeValue? : List Char → Option (List Char)
  | '"' :: cs => ((cs.dropWhile (· != '"')).tail?)
  | '\'' :: cs => ((cs.dropWhile (· != '\'')).tail?)
  | cs =>
    let bare := cs.takeWhile fun c =>
      !(c == ' ' || c == '\n' || c == '"' || c == '\'' || c == '=' || c == '<' || c == '>' ||
        c == '\x60')
    if bare.isEmpty then none else some (cs.drop bare.length)

def attribute? (cs : List Char) : Option (List Char) :=
  match cs with
  | c :: rest =>
    if c.isAlpha || c == '_' || c == ':' then
      let named := rest.dropWhile fun d =>
        d.isAlphanum || d == '_' || d == '.' || d == ':' || d == '-'
      match named.dropWhile isSpace with
      | '=' :: value => attributeValue? (value.dropWhile isSpace)
      | _ => some named
    else none
  | [] => none

/-- The attributes of a tag and its end, in at most `fuel` attributes. -/
def attributesAndEnd? : (fuel : Nat) → List Char → Option (List Char)
  | 0, _ => none
  | fuel + 1, cs =>
    let next := cs.dropWhile isSpace
    match next with
    | '>' :: rest => some rest
    | '/' :: '>' :: rest => some rest
    | _ =>
      if next.length = cs.length then none
      else (attribute? next).bind (attributesAndEnd? fuel)

/-- What follows an opening or a closing tag, whose `<` has been read.  A closing tag stands
on one line. -/
def afterTag? (cs : List Char) : Option (List Char) :=
  match cs with
  | '/' :: closing =>
    (tagName? closing).bind fun rest =>
      match rest.dropWhile isLineSpace with
      | '>' :: rest => some rest
      | _ => none
  | _ => (tagName? cs).bind fun rest => attributesAndEnd? (rest.length + 1) rest

/-- What follows a comment, an instruction, a declaration or a piece of literal text, whose
`<` has been read. -/
def afterSpecial? (cs : List Char) : Option (List Char) :=
  match after? "!--" cs with
  | some comment =>
    (after? ">" comment).or ((after? "->" comment).or (afterFirst? "-->".toList comment))
  | none =>
    match after? "?" cs with
    | some instruction => afterFirst? "?>".toList instruction
    | none =>
      match after? "![CDATA[" cs with
      | some literal => afterFirst? "]]>".toList literal
      | none =>
        match cs with
        | '!' :: c :: declaration =>
          if c.isAlpha then afterFirst? ['>'] declaration else none
        | _ => none

/-! ## Blocks -/

/-- When a block of HTML ends. -/
inductive HtmlEnd where
  /-- With the line that holds the characters. -/
  | at (mark : String)
  /-- Before the next blank line. -/
  | blank
  deriving DecidableEq, Repr

def literalTags : List (String × String) :=
  [("pre", "</pre>"), ("style", "</style>"), ("script", "</script>"), ("textarea", "</textarea>")]

def blockTags : List String :=
  ["address", "article", "aside", "base", "basefont", "blockquote", "body", "caption", "center",
    "col", "colgroup", "dd", "details", "dialog", "dir", "div", "dl", "dt", "fieldset",
    "figcaption", "figure", "footer", "form", "frame", "frameset", "h1", "h2", "h3", "h4", "h5",
    "h6", "head", "header", "hr", "html", "iframe", "legend", "li", "link", "main", "menu",
    "menuitem", "nav", "noframes", "ol", "optgroup", "option", "p", "param", "search", "section",
    "summary", "table", "tbody", "td", "tfoot", "th", "thead", "title", "tr", "track", "ul"]

def hasTagName (name : String) (cs : List Char) : Bool :=
  (cs.take name.length).map Char.toLower == name.toList

/-- The end of the literal content that begins after the `<`. -/
def literalEnd? (cs : List Char) : Option String :=
  let tag := literalTags.find? fun (name, _) =>
    hasTagName name cs &&
      match cs.drop name.length with
      | [] => true
      | c :: _ => isSpace c || c == '>'
  match tag with
  | some (_, ending) => some ending
  | none =>
    if (after? "!--" cs).isSome then some "-->"
    else if (after? "?" cs).isSome then some "?>"
    else if (after? "![CDATA[" cs).isSome then some "]]>"
    else
      match cs with
      | '!' :: c :: _ => if c.isAlpha then some ">" else none
      | _ => none

def beginsBlockTag (cs : List Char) : Bool :=
  let body := match cs with
    | '/' :: rest => rest
    | _ => cs
  let name := body.takeWhile Char.isAlphanum
  blockTags.contains (String.ofList (name.map Char.toLower)) &&
    match body.drop name.length with
    | [] => true
    | '/' :: '>' :: _ => true
    | c :: _ => c == ' ' || c == '\t' || c == '>'

/-- How the block of HTML ends that the line begins.  A lone tag of another name begins one
only where no paragraph is open. -/
def htmlBlock? (inParagraph : Bool) (cs : List Char) : Option HtmlEnd :=
  match cs with
  | '<' :: inner =>
    match literalEnd? inner with
    | some ending => some (.at ending)
    | none =>
      if beginsBlockTag inner then some .blank
      else if inParagraph then none
      else
        match afterTag? inner with
        | some rest => if isBlankLine rest then some .blank else none
        | none => none
  | _ => none

end Folio.Markup
