import Folio.Markup.Basic
import Folio.Markup.Entity
import Folio.Markup.Line
import Folio.Text.CaseFold

/-!
# Links and their definitions

A link names its target where it stands, `[text](address "title")`, or by a label that a
definition gives a target, `[label]: address "title"`.  Labels agree up to case and the
amount of space in them, and of several definitions of a label the first counts.
-/

namespace Folio.Markup

open Text (isAsciiPunctuation foldCase)

/-- The targets of the labels, each label in its normal form. -/
abbrev Definitions := List (List Char × Target)

/-- How deep the parentheses of an address may be nested where a link names it. -/
def linkNesting : Nat := 5

/-- How deep the parentheses of an address may be nested in a definition. -/
def definitionNesting : Nat := 1

/-! ## Address and title -/

/-- The rest of an address in angle brackets: what it holds and what follows it. -/
def bracketedAddress? : List Char → Option (List Char × List Char)
  | [] => none
  | '\n' :: _ => none
  | '<' :: _ => none
  | '>' :: cs => some ([], cs)
  | '\\' :: c :: cs =>
    if isAsciiPunctuation c then
      (bracketedAddress? cs).map fun (address, rest) => ('\\' :: c :: address, rest)
    else (bracketedAddress? (c :: cs)).map fun (address, rest) => ('\\' :: address, rest)
  | c :: cs => (bracketedAddress? cs).map fun (address, rest) => (c :: address, rest)

/-- An address up to a space or a parenthesis that it does not open, inside `depth` open
parentheses.  None is opened inside more than `nesting` others. -/
def bareAddress? (nesting depth : Nat) : List Char → Option (List Char × List Char)
  | [] => if depth = 0 then some ([], []) else none
  | '(' :: cs =>
    if depth > nesting then none
    else (bareAddress? nesting (depth + 1) cs).map fun (address, rest) => ('(' :: address, rest)
  | ')' :: cs =>
    if depth = 0 then some ([], ')' :: cs)
    else (bareAddress? nesting (depth - 1) cs).map fun (address, rest) => (')' :: address, rest)
  | '\\' :: c :: cs =>
    if isAsciiPunctuation c then
      (bareAddress? nesting depth cs).map fun (address, rest) => ('\\' :: c :: address, rest)
    else (bareAddress? nesting depth (c :: cs)).map fun (address, rest) => ('\\' :: address, rest)
  | c :: cs =>
    if c.toNat ≤ 0x20 then if depth = 0 then some ([], c :: cs) else none
    else (bareAddress? nesting depth cs).map fun (address, rest) => (c :: address, rest)

/-- The address at the front of the text, and what follows it. -/
def address? (nesting : Nat) : List Char → Option (List Char × List Char)
  | '<' :: cs => bracketedAddress? cs
  | cs => bareAddress? nesting 0 cs

/-- Nothing but spaces stands on the line that begins here, or there is none. -/
def isBlankStart (cs : List Char) : Bool :=
  match cs.dropWhile isLineSpace with
  | [] => true
  | c :: _ => c == '\n'

/-- The rest of a title up to its closing character: what it holds and what follows it.  The
indentation of a line does not belong to it (`fresh`: a line has just begun), and no line of
it is blank. -/
def titleRest? (opening closing : Char) (fresh : Bool) :
    List Char → Option (List Char × List Char)
  | [] => none
  | c :: cs =>
    if c = closing then some ([], cs)
    else if c = opening then none
    else if fresh ∧ isIndentation c then titleRest? opening closing true cs
    else if c = '\n' then
      if isBlankStart cs then none
      else (titleRest? opening closing true cs).map fun (title, rest) => (c :: title, rest)
    else if c = '\\' then
      match cs with
      | [] => none
      | d :: ds =>
        if isAsciiPunctuation d then
          (titleRest? opening closing false ds).map fun (title, rest) => (c :: d :: title, rest)
        else
          (titleRest? opening closing false (d :: ds)).map fun (title, rest) =>
            (c :: title, rest)
    else (titleRest? opening closing false cs).map fun (title, rest) => (c :: title, rest)

/-- The title at the front of the text, in quotes or parentheses, and what follows it. -/
def title? : List Char → Option (List Char × List Char)
  | '"' :: cs => titleRest? '"' '"' false cs
  | '\'' :: cs => titleRest? '\'' '\'' false cs
  | '(' :: cs => titleRest? '(' ')' false cs
  | _ => none

/-- Goes over spaces, and over one end of a line. -/
def skipSeparator (cs : List Char) : List Char :=
  match cs.dropWhile isLineSpace with
  | '\n' :: rest => rest.dropWhile isLineSpace
  | rest => rest

/-- The target made of an address and a title as they are written. -/
def targetOf (address title : List Char) : Target :=
  ⟨String.ofList (unescape address), String.ofList (unescape title)⟩

/-- The target in parentheses at the front of the text, and what follows it. -/
def inlineTarget? : List Char → Option (Target × List Char)
  | '(' :: cs => do
    let (address, rest) ← address? linkNesting (skipSeparator cs)
    let rest := skipSeparator rest
    let (title, rest) := match title? rest with
      | some (title, rest) => (title, skipSeparator rest)
      | none => ([], rest)
    match rest with
    | ')' :: rest => some (targetOf address title, rest)
    | _ => none
  | _ => none

/-! ## Labels -/

def maxLabelLength : Nat := 999

/-- The characters of a label up to the closing bracket, and what follows that.  A bracket
inside has a backslash before it, and no line of it is blank. -/
def labelRest? : List Char → Option (List Char × List Char)
  | [] => none
  | '[' :: _ => none
  | ']' :: cs => some ([], cs)
  | '\n' :: cs =>
    if isBlankStart cs then none
    else (labelRest? cs).map fun (label, rest) => ('\n' :: label, rest)
  | '\\' :: c :: cs => (labelRest? cs).map fun (label, rest) => ('\\' :: c :: label, rest)
  | c :: cs => (labelRest? cs).map fun (label, rest) => (c :: label, rest)

def collapseSpace (cs : List Char) : List Char :=
  cs.foldr
    (fun c done =>
      if isSpace c then
        match done with
        | ' ' :: _ => done
        | _ => ' ' :: done
      else c :: done) []

/-- The form in which labels are compared: without space at the ends, other stretches of
space as one space, and the case folded. -/
def normalLabel (label : List Char) : List Char :=
  foldCase (collapseSpace (trimLineEnd (label.dropWhile isSpace)))

/-- The label in brackets at the front of the text, and what follows it. -/
def label? : List Char → Option (List Char × List Char)
  | '[' :: cs =>
    (labelRest? cs).bind fun (label, rest) =>
      if label.all isSpace || label.length > maxLabelLength then none else some (label, rest)
  | _ => none

/-! ## Definitions -/

/-- Goes over spaces and at most one end of a line, and counts the ends.  A blank line is no
part of a definition. -/
def definitionSpace? (cs : List Char) : Option (Nat × List Char) :=
  match cs.dropWhile isLineSpace with
  | '\n' :: rest =>
    match rest.dropWhile isLineSpace with
    | '\n' :: _ => none
    | rest => some (1, rest)
  | rest => some (0, rest)

/-- Goes over the end of a line with nothing but spaces before it. -/
def lineEnd? (cs : List Char) : Option (List Char) :=
  match cs.dropWhile isLineSpace with
  | [] => some []
  | '\n' :: rest => some rest
  | _ => none

/-- The definition at the front of the text: its label and target, and the lines after it. -/
def definition? (cs : List Char) : Option (List Char × Target × List Char) := do
  let (label, rest) ← label? cs
  match rest with
  | ':' :: rest =>
    let (_, rest) ← definitionSpace? rest
    let (address, afterAddress) ← address? definitionNesting rest
    if rest.length = afterAddress.length then none
    else
      let untitled := (lineEnd? afterAddress).map fun rest =>
        (normalLabel label, targetOf address [], rest)
      match definitionSpace? afterAddress with
      | none => untitled
      | some (_, beforeTitle) =>
        if beforeTitle.length = afterAddress.length then untitled
        else
          match title? beforeTitle with
          | none => untitled
          | some (title, afterTitle) =>
            match lineEnd? afterTitle with
            | some rest => some (normalLabel label, targetOf address title, rest)
            | none => untitled
  | _ => none

end Folio.Markup
