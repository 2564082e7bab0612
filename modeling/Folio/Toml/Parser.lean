import Folio.Toml.Draft
import Folio.Toml.Scalar

/-!
# Reading TOML documents

A document is a list of lines: a header that opens a table, or a key with its value.  A
text that is no document gives nothing; what is wrong with it is not said.
-/

namespace Folio.Toml

/-- How deep values may be nested, and how many keys a dotted key may have. -/
def maxDepth : Nat := 80

def skipComment (cs : List Char) : List Char :=
  match cs with
  | '#' :: rest => rest.dropWhile isPlain
  | _ => cs

/-! ## Keys -/

def isBareKeyChar (c : Char) : Bool :=
  c.isAlphanum || c == '_' || c == '-'

def simpleKey? (cs : List Char) : Option (String × List Char) :=
  let bare := cs.takeWhile isBareKeyChar
  if bare.isEmpty then (lineString? cs).map fun (key, rest) => (String.ofList key, rest)
  else some (String.ofList bare, cs.drop bare.length)

/-- Keys with dots between them, at most `fuel` of them. -/
def keys? : (fuel : Nat) → List Char → Option (List String × List Char)
  | 0, _ => none
  | fuel + 1, cs => do
    let (key, rest) ← simpleKey? (skipGap cs)
    match skipGap rest with
    | '.' :: more => (keys? fuel more).map fun (keys, rest) => (key :: keys, rest)
    | rest => some ([key], rest)

/-- A dotted key: the keys on the way, the last key, and what follows. -/
def dottedKey? (cs : List Char) : Option (List String × String × List Char) := do
  let (keys, rest) ← keys? (maxDepth - 1) cs
  let last ← keys.getLast?
  some (keys.dropLast, last, rest)

/-! ## Values -/

/-- Goes over spaces, line ends and comments, in at most `fuel` lines. -/
def skipFiller : (fuel : Nat) → List Char → List Char
  | 0, cs => cs
  | fuel + 1, cs =>
    let rest := skipComment (skipGap cs)
    match lineEnd? rest with
    | some next => skipFiller fuel next
    | none => rest

/-- Goes over everything that may stand between the items of an array. -/
def skipBetween (cs : List Char) : List Char :=
  skipFiller (cs.length + 1) cs

mutual

/-- A value, in at most `fuel` steps, inside `depth` others at most. -/
def value? : (fuel depth : Nat) → List Char → Option (Value × List Char)
  | 0, _, _ => none
  | fuel + 1, depth, cs =>
    match cs with
    | '[' :: rest =>
      if depth = 0 then none
      else
        (items? fuel (depth - 1) (skipBetween rest)).map fun (items, rest) => (.array items, rest)
    | '\x7b' :: rest =>
      if depth = 0 then none
      else
        match skipGap rest with
        | '\x7d' :: rest => some (.table [], rest)
        | rest =>
          (pairs? fuel (depth - 1) [] rest).map fun (entries, rest) =>
            (.table (entriesToTable entries), rest)
    | c :: _ =>
      if c = '"' ∨ c = '\'' then
        (string? cs).map fun (s, rest) => (.string (String.ofList s), rest)
      else scalar? cs
    | [] => none

def items? : (fuel depth : Nat) → List Char → Option (List Value × List Char)
  | 0, _, _ => none
  | fuel + 1, depth, cs =>
    match cs with
    | ']' :: rest => some ([], rest)
    | _ => do
      let (v, rest) ← value? fuel depth cs
      match skipBetween rest with
      | ',' :: rest =>
        let (vs, rest) ← items? fuel depth (skipBetween rest)
        some (v :: vs, rest)
      | ']' :: rest => some ([v], rest)
      | _ => none

def pairs? : (fuel depth : Nat) → Entries → List Char → Option (Entries × List Char)
  | 0, _, _, _ => none
  | fuel + 1, depth, entries, cs => do
    let (keys, key, rest) ← dottedKey? cs
    let rest ← mark? '=' rest
    let (v, rest) ← value? fuel depth (skipGap rest)
    let entries ← addDotted keys key v entries
    match skipGap rest with
    | ',' :: rest => pairs? fuel depth entries rest
    | '\x7d' :: rest => some (entries, rest)
    | _ => none

end

/-! ## Lines -/

/-- A document as far as it is read: what it holds, and the keys of the table that is open. -/
structure Progress where
  entries : Entries
  current : List String

/-- Takes in one line that is not blank: what follows it. -/
def takeLine? (progress : Progress) (cs : List Char) : Option (Progress × List Char) :=
  match cs with
  | '[' :: '[' :: rest => do
    let (keys, key, rest) ← dottedKey? rest
    let rest ← mark? ']' rest
    let rest ← mark? ']' rest
    let entries ← alterAt false (openNext key) keys .opened progress.entries
    some (⟨entries, keys ++ [key]⟩, rest)
  | '[' :: rest => do
    let (keys, key, rest) ← dottedKey? rest
    let rest ← mark? ']' rest
    let entries ← alterAt false (openTable key) keys .opened progress.entries
    some (⟨entries, keys ++ [key]⟩, rest)
  | _ => do
    let (keys, key, rest) ← dottedKey? cs
    let rest ← mark? '=' rest
    let (v, rest) ← value? (2 * rest.length + 2) (maxDepth - 1) (skipGap rest)
    let entries ← alterAt false (fun _ => addDotted keys key v) progress.current .opened
      progress.entries
    some ({ progress with entries }, rest)

def takeLines? : (fuel : Nat) → Progress → List Char → Option Progress
  | 0, _, _ => none
  | fuel + 1, progress, cs => do
    let front := skipGap cs
    let (progress, rest) ←
      if front.isEmpty || front.head? == some '#' || (lineEnd? front).isSome then
        some (progress, front)
      else takeLine? progress front
    let rest := skipComment (skipGap rest)
    match rest with
    | [] => some progress
    | _ => (lineEnd? rest).bind (takeLines? fuel progress)

def parse (text : String) : Option Table :=
  let cs := match text.toList with
    | '\ufeff' :: cs => cs
    | cs => cs
  (takeLines? (cs.length + 1) ⟨[], []⟩ cs).map fun progress => entriesToTable progress.entries

end Folio.Toml
