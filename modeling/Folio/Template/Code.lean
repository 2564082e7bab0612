import Folio.Text.Blank
import Folio.Text.Lines

/-!
# Code in Markdown text

Braces inside code are no template syntax.  A run of backticks or of tildes opens a
span, and a run of the same marker at least as long, on the same line, closes it.  A run
that nothing on its line closes opens a block: it goes on to the line that closes it, or
to the end of the text.  Positions are lines and byte columns, both from 0.
-/

namespace Folio

open Text (isBlank linesOf withoutLineEnd byteLength)

/-- The marker, its length and the indentation of the line with which a block opens. -/
structure Fence where
  marker : Char
  length : Nat
  indent : Nat
  deriving DecidableEq, Repr

inductive LineCode where
  /-- The whole line belongs to a block. -/
  | block
  /-- Spans from a column up to another, in order. -/
  | spans (ranges : List (Nat × Nat))
  deriving DecidableEq, Repr

abbrev CodeFragments := List LineCode

namespace CodeFragments

def isMarker (c : Char) : Bool :=
  c == '\x60' || c == '~'

def runLength (marker : Char) (cs : List Char) : Nat :=
  (cs.takeWhile (· == marker)).length

/-- Looks for a run of the marker that is long enough: the bytes up to its end, and what
follows.  `run` is the length of the run that ends here. -/
def closingRun? (marker : Char) (length : Nat) : (run : Nat) → List Char → Option (Nat × List Char)
  | run, [] => if 0 < run ∧ length ≤ run then some (0, []) else none
  | run, c :: cs =>
    if c = marker then
      (closingRun? marker length (run + 1) cs).map fun (bytes, rest) => (bytes + c.utf8Size, rest)
    else if 0 < run ∧ length ≤ run then some (0, c :: cs)
    else (closingRun? marker length 0 cs).map fun (bytes, rest) => (bytes + c.utf8Size, rest)

theorem length_of_closingRun? {marker : Char} {length run bytes : Nat} {cs rest : List Char}
    (h : closingRun? marker length run cs = some (bytes, rest)) : rest.length ≤ cs.length := by
  induction cs generalizing run bytes with
  | nil =>
    rw [closingRun?] at h
    split at h <;> simp_all
  | cons c cs ih =>
    rw [closingRun?] at h
    split at h
    · obtain ⟨⟨b, r⟩, found, same⟩ := Option.map_eq_some_iff.1 h
      simp only [Prod.mk.injEq] at same
      obtain ⟨_, rfl⟩ := same
      exact Nat.le_succ_of_le (ih found)
    · split at h
      · simp only [Option.some.injEq, Prod.mk.injEq] at h
        simp [← h.2]
      · obtain ⟨⟨b, r⟩, found, same⟩ := Option.map_eq_some_iff.1 h
        simp only [Prod.mk.injEq] at same
        obtain ⟨_, rfl⟩ := same
        exact Nat.le_succ_of_le (ih found)

def indentOf (line : List Char) : Nat :=
  (line.takeWhile fun c => c == ' ' || c == '\t').length

theorem length_drop_run_lt {marker : Char} {cs : List Char} :
    ((marker :: cs).dropWhile (· == marker)).length < (marker :: cs).length := by
  have shorter : ∀ l : List Char, (l.dropWhile (· == marker)).length ≤ l.length := by
    intro l
    induction l with
    | nil => simp
    | cons d l ih =>
      rw [List.dropWhile_cons]
      split
      · exact Nat.le_succ_of_le ih
      · exact Nat.le_refl _
  simpa [List.dropWhile_cons] using Nat.lt_succ_of_le (shorter cs)

/-- The spans of the rest of a line, which begins at `column`, and the marker and length
of the run that is left open. -/
def scanSpans (column : Nat) : List Char → List (Nat × Nat) × Option (Char × Nat)
  | [] => ([], none)
  | c :: cs =>
    if isMarker c then
      let length := runLength c (c :: cs)
      match found : closingRun? c length 0 ((c :: cs).dropWhile (· == c)) with
      | some (bytes, rest) =>
        have := Nat.lt_of_le_of_lt (length_of_closingRun? found) length_drop_run_lt
        let (spans, opened) := scanSpans (column + length + bytes) rest
        ((column, column + length + bytes) :: spans, opened)
      | none => ([(column, column + byteLength (c :: cs))], some (c, length))
    else scanSpans (column + c.utf8Size) cs
termination_by cs => cs.length
decreasing_by
  · exact this
  · exact Nat.lt_succ_self _

/-- The line closes the block that the fence opened: it has the same indentation, a run
that is long enough, and nothing but blanks after that. -/
def closes (line : List Char) (fence : Fence) : Bool :=
  let body := line.drop (indentOf line)
  indentOf line == fence.indent && fence.length ≤ runLength fence.marker body &&
    (body.drop (runLength fence.marker body)).all isBlank

/-- The code of the lines, where `opened` is the block that goes on from before. -/
def scanLines : Option Fence → List (List Char) → CodeFragments
  | _, [] => []
  | some fence, line :: lines =>
    .block :: scanLines (if closes line fence then none else some fence) lines
  | none, line :: lines =>
    let (spans, opened) := scanSpans 0 line
    .spans spans ::
      scanLines (opened.map fun (marker, length) => ⟨marker, length, indentOf line⟩) lines

def scan (text : String) : CodeFragments :=
  scanLines none ((linesOf text.toList).map withoutLineEnd)

def contains (fragments : CodeFragments) (line column : Nat) : Bool :=
  match fragments[line]? with
  | some .block => true
  | some (.spans ranges) => ranges.any fun (first, last) => first ≤ column && column < last
  | none => false

end CodeFragments

end Folio
