import Folio.Proofs.Template.Nesting

/-!
# Code in templates

The parts of an accepted text lie side by side on its lines, each at a byte column of its own.  A
position in code is a part of its own, which the tree has as it stands, or it lies in a tag whose
opening brace stands before it on the line, outside code.  It is never that brace and never half of
a doubled one: where code begins there is a marker and no brace.

Main statement: `code_is_text_or_in_tag`.
-/

namespace Folio.Template

open CodeFragments (closingRun? isMarker runLength scanLines scanSpans)
open Text (byteLength linesOf withoutLineEnd)

variable {isCode : ℕ → Bool} {column start k : ℕ} {c d : Char} {s front back : List Char} {marks : List Mark} {m : Mark}

/-! ## Parts of a line -/

/-- A part of the source: a character as it stands, a doubled brace, or a tag. -/
inductive Part where
  | text (c : Char)
  | doubled (c : Char)
  | tag (inner : List Char)

def Part.source : Part → List Char
  | .text c => [c]
  | .doubled c => [c, c]
  | .tag inner => '\x7b' :: (inner ++ ['\x7d'])

/-- What the part is in a tree. -/
inductive Part.Reads : Part → Mark → Prop where
  | text (c : Char) : Reads (.text c) (.char c)
  | doubled (c : Char) : Reads (.doubled c) (.char c)
  | tag {inner : List Char} {m : Mark} (stands : StandsFor inner m) : Reads (.tag inner) m

def sourceOf (parts : List Part) : List Char :=
  parts.flatMap Part.source

/-- Among parts that lie side by side from a column on, this one begins at `start`. -/
inductive PartAt : ℕ → List Part → ℕ → Part → Prop where
  | here (column : ℕ) (part : Part) (parts : List Part) : PartAt column (part :: parts) column part
  | later {column start : ℕ} {first part : Part} {parts : List Part}
      (rest : PartAt (column + byteLength first.source) parts start part) : PartAt column (first :: parts) start part

def Part.Opens (isCode : ℕ → Bool) (start : ℕ) : Part → Prop
  | .text _ => True
  | .doubled c => (c = '\x7b' ∨ c = '\x7d') ∧ isCode start = false
  | .tag _ => isCode start = false

variable {part first : Part} {parts : List Part}

theorem PartAt.split (placed : PartAt column parts start part) :
    ∃ before after, parts = before ++ part :: after ∧ start = column + byteLength (sourceOf before) := by
  induction placed with
  | here column part parts => exact ⟨[], parts, rfl, rfl⟩
  | @later column start first part parts rest ih =>
    obtain ⟨before, after, rfl, rfl⟩ := ih
    refine ⟨first :: before, after, rfl, ?_⟩
    rw [sourceOf, sourceOf, List.flatMap_cons, Text.byteLength_append, Nat.add_assoc]

/-- Each byte belongs to a part. -/
theorem exists_partAt (inside : k < byteLength (sourceOf parts)) (column : ℕ) :
    ∃ start part, PartAt column parts start part ∧ start ≤ column + k ∧ column + k < start + byteLength part.source := by
  induction parts generalizing column k with
  | nil => simp [sourceOf, byteLength] at inside
  | cons first parts ih =>
    rw [sourceOf, List.flatMap_cons, Text.byteLength_append, ← sourceOf] at inside
    by_cases within : k < byteLength first.source
    · exact ⟨column, first, .here _ _ _, by omega, by omega⟩
    · obtain ⟨start, part, placed, above, below⟩ :=
        ih (k := k - byteLength first.source) (by omega) (column + byteLength first.source)
      exact ⟨start, part, .later placed, by omega, by omega⟩

/-- The line has parts that are read as these marks. -/
def HasParts (isCode : ℕ → Bool) (column : ℕ) (s : List Char) (marks : List Mark) (parts : List Part) : Prop :=
  sourceOf parts = s ∧ List.Forall₂ Part.Reads parts marks ∧
    ∀ start part, PartAt column parts start part → part.Opens isCode start

theorem HasParts.cons (reads : first.Reads m) (opens : first.Opens isCode column)
    (rest : HasParts isCode (column + byteLength first.source) s marks parts) :
    HasParts isCode column (first.source ++ s) (m :: marks) (first :: parts) := by
  obtain ⟨rfl, others, outside⟩ := rest
  refine ⟨rfl, .cons reads others, fun start part placed => ?_⟩
  cases placed with
  | here => exact opens
  | later rest => exact outside start part rest

theorem LineCut.exists_parts (cut : LineCut isCode column s marks) : ∃ parts, HasParts isCode column s marks parts := by
  induction cut with
  | nil column => exact ⟨[], rfl, .nil, fun _ _ placed => nomatch placed⟩
  | @char column c s marks noOpen noClose rest ih =>
    obtain ⟨parts, rest⟩ := ih
    exact ⟨.text c :: parts, .cons (.text c) trivial rest⟩
  | @code column c s marks brace inCode rest ih =>
    obtain ⟨parts, rest⟩ := ih
    have size : byteLength (Part.text c).source = 1 := by obtain rfl | rfl := brace <;> decide
    exact ⟨.text c :: parts, .cons (.text c) trivial (size ▸ rest)⟩
  | @doubled column c s marks brace noCode rest ih =>
    obtain ⟨parts, rest⟩ := ih
    have size : byteLength (Part.doubled c).source = 2 := by obtain rfl | rfl := brace <;> decide
    exact ⟨.doubled c :: parts, .cons (.doubled c) ⟨brace, noCode⟩ (size ▸ rest)⟩
  | closing alone noCode rest ih =>
    obtain ⟨parts, rest⟩ := ih
    exact ⟨.text '\x7d' :: parts, .cons (.text _) trivial rest⟩
  | @tag column inner s m marks single noCode unbraced stands rest ih =>
    obtain ⟨parts, rest⟩ := ih
    have size : column + byteLength (Part.tag inner).source = column + byteLength inner + 2 := by
      have open_size : ('\x7b').utf8Size = 1 := by decide
      have close_size : ('\x7d').utf8Size = 1 := by decide
      simp only [Part.source, byteLength, Text.byteLength_append, open_size, close_size]
      omega
    have tagged : Part.Reads (.tag inner) m := .tag stands
    refine ⟨.tag inner :: parts, ?_⟩
    simpa [Part.source] using HasParts.cons tagged noCode (size ▸ rest)

/-- Lines of parts, and where the text has its code. -/
structure Covers (isCode : ℕ → ℕ → Bool) (index : ℕ) (s : List Char) (marks : List Mark) (lines : List (List Part)) :
    Prop where
  source : lines.map sourceOf = linesOf s
  reads : List.Forall₂ Part.Reads lines.flatten marks
  opens : ∀ l parts, lines[l]? = some parts → ∀ start part, PartAt 0 parts start part →
    part.Opens (isCode (index + l)) start

theorem TextCut.exists_covers {isCode : ℕ → ℕ → Bool} {index : ℕ} (cut : TextCut isCode index s marks) :
    ∃ lines, Covers isCode index s marks lines := by
  induction cut with
  | nil index => exact ⟨[], rfl, .nil, fun _ _ none => by simp at none⟩
  | @last index s marks present oneLine line =>
    obtain ⟨parts, source, reads, opens⟩ := line.exists_parts
    refine ⟨[parts], by rw [Text.linesOf_oneLine present oneLine, List.map_singleton, source], by simpa using reads, ?_⟩
    intro l others found
    obtain ⟨rfl, rfl⟩ : l = 0 ∧ parts = others := by simpa [List.getElem?_singleton] using found
    exact opens
  | @line index s below marks others oneLine line rest ih =>
    obtain ⟨parts, source, reads, opens⟩ := line.exists_parts
    obtain ⟨lines, covers⟩ := ih
    refine ⟨parts :: lines, ?_, ?_, fun l here found => ?_⟩
    · rw [Text.linesOf_line oneLine, List.map_cons, source, covers.source]
    · rw [List.flatten_cons]
      exact List.rel_append reads covers.reads
    · cases l with
      | zero =>
        cases found
        exact opens
      | succ l =>
        have later := covers.opens l here found
        rwa [Nat.add_right_comm] at later

/-! ## Where code begins -/

theorem utf8Size_of_isMarker (marker : isMarker c = true) : c.utf8Size = 1 := by
  obtain rfl | rfl : c = '\x60' ∨ c = '~' := by simpa [isMarker] using marker
  · decide
  · decide

theorem exists_of_closingRun? {marker : Char} {length run bytes : ℕ} {rest : List Char}
    (found : closingRun? marker length run s = some (bytes, rest)) :
    ∃ passed, s = passed ++ rest ∧ byteLength passed = bytes := by
  induction s generalizing run bytes with
  | nil =>
    rw [closingRun?] at found
    split_ifs at found
    cases found
    exact ⟨[], rfl, rfl⟩
  | cons c s ih =>
    -- A character that is passed by stands in front of what is passed after it.
    have step {run : ℕ} (found : (closingRun? marker length run s).map (fun found => (found.1 + c.utf8Size, found.2)) =
        some (bytes, rest)) : ∃ passed, c :: s = passed ++ rest ∧ byteLength passed = bytes := by
      obtain ⟨⟨later, others⟩, onward, same⟩ := Option.map_eq_some_iff.1 found
      obtain ⟨rfl, rfl⟩ := Prod.mk.inj same
      obtain ⟨passed, rfl, rfl⟩ := ih onward
      exact ⟨c :: passed, rfl, by rw [byteLength, Nat.add_comm]⟩
    rw [closingRun?] at found
    split_ifs at found with same enough
    · exact step found
    · cases found
      exact ⟨[], rfl, rfl⟩
    · exact step found

theorem byteLength_run (marker : isMarker c = true) (s : List Char) :
    byteLength (s.takeWhile (· == c)) = runLength c s := by
  rw [runLength]
  induction s with
  | nil => rfl
  | cons d s ih =>
    by_cases same : d = c
    · subst same
      simp [byteLength, utf8Size_of_isMarker marker, ih, Nat.add_comm]
    · simp [same, byteLength]

/-- A marker stands at this column of the text, which begins at another. -/
def MarkerAt (column : ℕ) (s : List Char) (k : ℕ) : Prop :=
  ∃ front c back, s = front ++ c :: back ∧ isMarker c = true ∧ k = column + byteLength front

theorem MarkerAt.prepend (passed : List Char) (there : MarkerAt (column + byteLength passed) s k) :
    MarkerAt column (passed ++ s) k := by
  obtain ⟨front, c, back, rfl, marker, rfl⟩ := there
  exact ⟨passed ++ front, c, back, by simp, marker, by rw [Text.byteLength_append, Nat.add_assoc]⟩

theorem MarkerAt.append (there : MarkerAt column s k) (tail : List Char) : MarkerAt column (s ++ tail) k := by
  obtain ⟨front, c, back, rfl, marker, rfl⟩ := there
  exact ⟨front, c, back ++ tail, by simp, marker, rfl⟩

/-- Every span of code begins with a marker. -/
theorem marker_of_scanSpans (column : ℕ) (s : List Char) :
    ∀ range ∈ (scanSpans column s).1, MarkerAt column s range.1 := by
  fun_induction scanSpans column s with
  | case1 => simp
  | case2 column c cs marker length bytes rest found shorter spans opened later ih =>
    refine List.forall_mem_cons.2 ⟨⟨[], c, cs, rfl, marker, rfl⟩, fun range mem => ?_⟩
    rw [later] at ih
    -- What the span covers is the run that opens it, and what is passed up to its end.
    obtain ⟨passed, whole, size⟩ := exists_of_closingRun? found
    have cut : c :: cs = ((c :: cs).takeWhile (· == c) ++ passed) ++ rest := by
      rw [List.append_assoc, ← whole, List.takeWhile_append_dropWhile]
    rw [cut]
    refine MarkerAt.prepend _ ?_
    rw [Text.byteLength_append, byteLength_run marker, size, ← Nat.add_assoc]
    exact ih range mem
  | case3 column c cs marker length none => simpa using ⟨[], c, cs, rfl, marker, rfl⟩
  | case4 column c cs noMarker ih =>
    intro range mem
    exact MarkerAt.prepend [c] (by simpa [byteLength] using ih range mem)

theorem spans_of_scanLines {opened : Option Fence} {lines : List (List Char)} {l : ℕ} {ranges : List (ℕ × ℕ)}
    (found : (scanLines opened lines)[l]? = some (.spans ranges)) :
    ∃ line, lines[l]? = some line ∧ ranges = (scanSpans 0 line).1 := by
  induction lines generalizing opened l with
  | nil => cases opened <;> simp [scanLines] at found
  | cons line lines ih =>
    cases opened with
    | some fence =>
      rw [scanLines] at found
      cases l with
      | zero => cases found
      | succ l => exact ih found
    | none =>
      rw [scanLines] at found
      cases l with
      | zero =>
        cases found
        exact ⟨line, rfl, rfl⟩
      | succ l => exact ih found

/-- A line ends with nothing, a line feed, or a carriage return and a line feed. -/
theorem exists_withoutLineEnd (line : List Char) :
    ∃ tail, line = withoutLineEnd line ++ tail ∧ ∀ c ∈ tail, c = '\r' ∨ c = '\n' := by
  have spelled := line.reverse_reverse
  rw [withoutLineEnd]
  split
  · rename_i rest reversed
    rw [reversed] at spelled
    exact ⟨['\r', '\n'], by simpa using spelled.symm, by simp⟩
  · rename_i rest _ reversed
    rw [reversed] at spelled
    exact ⟨['\n'], by simpa using spelled.symm, by simp⟩
  · exact ⟨[], by simp, by simp⟩

/-- Where code begins in the middle of a line there is a marker. -/
theorem marker_of_contains {text : String} {l : ℕ} {line : List Char} (here : (linesOf text.toList)[l]? = some line)
    (inCode : (CodeFragments.scan text).contains l (k + 1) = true)
    (before : (CodeFragments.scan text).contains l k = false) : MarkerAt 0 line (k + 1) := by
  rw [CodeFragments.contains] at inCode before
  split at inCode
  · rename_i block
    simp [block] at before
  · rename_i ranges found
    rw [found] at before
    obtain ⟨stripped, same, rfl⟩ := spans_of_scanLines found
    rw [List.getElem?_map, here, Option.map_some] at same
    cases same
    obtain ⟨⟨first, last⟩, mem, within⟩ := List.any_eq_true.1 inCode
    have outside := List.any_eq_false.1 before _ mem
    simp only [Bool.and_eq_true, decide_eq_true_eq] at within outside
    obtain rfl : first = k + 1 := by omega
    obtain ⟨tail, whole, -⟩ := exists_withoutLineEnd line
    rw [whole]
    exact (marker_of_scanSpans 0 _ _ mem).append tail
  · cases inCode

/-- Only one character begins at a column. -/
theorem eq_of_byteLength {front' back' : List Char} (same : front ++ c :: back = front' ++ d :: back')
    (sizes : byteLength front = byteLength front') : c = d := by
  induction front generalizing front' with
  | nil =>
    cases front' with
    | nil => exact (List.cons.inj same).1
    | cons e front' =>
      have size := e.utf8Size_pos
      simp only [byteLength] at sizes
      omega
  | cons e front ih =>
    cases front' with
    | nil =>
      have size := e.utf8Size_pos
      simp only [byteLength] at sizes
      omega
    | cons e' front' =>
      obtain ⟨rfl, rest⟩ := List.cons.inj same
      exact ih rest (by simpa [byteLength] using sizes)

/-- The second of two equal braces outside code is outside code too. -/
theorem not_contains_doubled {text : String} {l : ℕ} {line : List Char} (here : (linesOf text.toList)[l]? = some line)
    (spelled : line = front ++ c :: c :: back) (brace : c = '\x7b' ∨ c = '\x7d')
    (before : (CodeFragments.scan text).contains l (byteLength front) = false) :
    (CodeFragments.scan text).contains l (byteLength front + 1) = false := by
  by_contra inCode
  obtain ⟨front', d, back', same, marker, size⟩ := marker_of_contains here (by simpa using inCode) before
  have single : c.utf8Size = 1 := by obtain rfl | rfl := brace <;> decide
  have whole : (front ++ [c]) ++ c :: back = front' ++ d :: back' := by simpa [spelled] using same
  obtain rfl := eq_of_byteLength whole (by simp [Text.byteLength_append, byteLength, single] at size ⊢; omega)
  obtain rfl | rfl := brace
  · exact absurd marker (by decide)
  · exact absurd marker (by decide)

/-! ## Main statement -/

/-- An accepted document body lies in parts side by side, of which its tree is made.  A position in
code belongs to a character that is in the tree as it stands, or to a tag whose opening brace stands
before it, outside code. -/
theorem code_is_text_or_in_tag (text : String) (t : Template) (parsed : parseMarkdown text = .ok t) :
    ∃ lines : List (List Part), lines.map sourceOf = linesOf text.toList ∧
      List.Forall₂ Part.Reads lines.flatten (nodesMarks t) ∧
      ∀ l parts, lines[l]? = some parts → ∀ k < byteLength (sourceOf parts),
        (CodeFragments.scan text).contains l k = true →
        ∃ start part, PartAt 0 parts start part ∧ start ≤ k ∧ k < start + byteLength part.source ∧
          ((∃ c, part = .text c) ∨
            ∃ inner, part = .tag inner ∧ start < k ∧ (CodeFragments.scan text).contains l start = false) := by
  obtain ⟨marks, cut⟩ := exists_cut_of_parseWith parsed
  obtain ⟨same, -⟩ := marks_of_parseWith cut parsed
  obtain ⟨lines, covers⟩ := TextCut.exists_covers cut
  refine ⟨lines, covers.source, same ▸ covers.reads, fun l parts found k inside inCode => ?_⟩
  obtain ⟨start, part, placed, above, below⟩ := exists_partAt inside 0
  rw [Nat.zero_add] at above below
  have opens := covers.opens l parts found start part placed
  rw [Nat.zero_add] at opens
  refine ⟨start, part, placed, above, below, ?_⟩
  cases part with
  | text c => exact .inl ⟨c, rfl⟩
  | tag inner =>
    refine .inr ⟨inner, rfl, lt_of_le_of_ne above fun first => ?_, opens⟩
    rw [← first, opens] at inCode
    cases inCode
  | doubled c =>
    -- Neither half of a doubled brace is in code: not the first, so not the second.
    obtain ⟨brace, noCode⟩ := opens
    have here : (linesOf text.toList)[l]? = some (sourceOf parts) := by
      rw [← covers.source, List.getElem?_map, found, Option.map_some]
    obtain ⟨before, after, rfl, rfl⟩ := placed.split
    rw [Nat.zero_add] at *
    have spelled : sourceOf (before ++ .doubled c :: after) = sourceOf before ++ c :: c :: sourceOf after := by
      simp [sourceOf, Part.source]
    have second := not_contains_doubled here spelled brace noCode
    have size : byteLength (Part.doubled c).source = 2 := by obtain rfl | rfl := brace <;> decide
    obtain rfl | rfl : k = byteLength (sourceOf before) ∨ k = byteLength (sourceOf before) + 1 := by omega
    · rw [noCode] at inCode
      cases inCode
    · rw [second] at inCode
      cases inCode

theorem parse_of_tokens {text : String} {fragments : CodeFragments} {tokens : List Token}
    (scanned : CodeFragments.scan text = fragments) (cut : Template.tokens fragments.contains text = tokens)
    (reads : List.Forall₂ Token.Reads tokens marks) (nested : WellNested marks) :
    ∃ t, parseMarkdown text = .ok t ∧ nodesMarks t = marks := by
  subst scanned cut
  obtain ⟨t, parsed⟩ := exists_parseWith_of_cut (cut_iff.2 reads) nested
  exact ⟨t, parsed, (marks_of_parseWith (cut_iff.2 reads) parsed).1⟩

/-- A brace in a span, before a tag: it is text. -/
theorem code_is_text_or_in_tag_span :
    ∃ t, parseMarkdown "`\x7bx\x7d` \x7by\x7d" = .ok t ∧ ∃ lines : List (List Part), ∃ parts, lines[0]? = some parts ∧
      List.Forall₂ Part.Reads lines.flatten (nodesMarks t) ∧
      ∃ start c, PartAt 0 parts start (.text c) ∧ start ≤ 1 ∧ 1 < start + byteLength [c] := by
  have name : Printable (.variable "y") := .name (by decide) (by decide) (by decide)
  have y : StandsFor "y".toList (.expression (.variable "y")) :=
    ⟨_, name.parse_text, .expression (by simp) (by simp) (by simp)⟩
  have scanned : CodeFragments.scan "`\x7bx\x7d` \x7by\x7d" = [.spans [(0, 5)]] := by cbv
  have cut : tokens (CodeFragments.contains [.spans [(0, 5)]]) "`\x7bx\x7d` \x7by\x7d" =
      [.char '`', .char '\x7b', .char 'x', .char '\x7d', .char '`', .char ' ', .substitution 1 "y".toList] := by cbv
  obtain ⟨t, parsed, -⟩ := parse_of_tokens scanned cut
    (.cons (.char _) (.cons (.char _) (.cons (.char _) (.cons (.char _) (.cons (.char _) (.cons (.char _)
      (.cons (.substitution 1 y) .nil)))))))
    (.char _ (.char _ (.char _ (.char _ (.char _ (.char _ (.expression _ .nil)))))))
  obtain ⟨lines, source, reads, covered⟩ := code_is_text_or_in_tag _ t parsed
  have single : linesOf "`\x7bx\x7d` \x7by\x7d".toList = ["`\x7bx\x7d` \x7by\x7d".toList] := by decide +kernel
  obtain ⟨parts, rfl⟩ : ∃ parts, lines = [parts] := List.length_eq_one_iff.1 (by
    rw [← List.length_map sourceOf, source, single]
    rfl)
  rw [single, List.map_singleton, List.singleton_inj] at source
  obtain ⟨start, part, placed, above, below, ⟨c, rfl⟩ | ⟨inner, rfl, before, outside⟩⟩ :=
    covered 0 parts rfl 1 (by rw [source]; decide +kernel) (by rw [scanned]; decide)
  · exact ⟨t, parsed, [parts], parts, rfl, reads, start, c, placed, above, below⟩
  · -- The only position before it is code too.
    obtain rfl : start = 0 := by omega
    rw [scanned] at outside
    cases outside

/-- The brace that closes this tag is code, from the first backtick on; of the four characters of code
only the last is text. -/
theorem code_closes_tag :
    (∀ k, 2 ≤ k → k < 6 → (CodeFragments.scan "\x7b'`'\x7d`").contains 0 k = true) ∧
      "\x7b'`'\x7d`".toList[4]? = some '\x7d' ∧
      ∃ t, parseMarkdown "\x7b'`'\x7d`" = .ok t ∧ nodesMarks t = [.expression (.value (.str "`")), .char '`'] := by
  have quoted : Printable (.value (.str "`")) := .str (by decide) (by decide)
  have written : String.ofList (expressionText "'`'".toList) = (Expr.value (.str "`")).text := by decide +kernel
  have tick : StandsFor "'`'".toList (.expression (.value (.str "`"))) :=
    ⟨_, written ▸ quoted.parse_text, .expression (by simp) (by simp) (by simp)⟩
  have scanned : CodeFragments.scan "\x7b'`'\x7d`" = [.spans [(2, 6)]] := by cbv
  have cut : tokens (CodeFragments.contains [.spans [(2, 6)]]) "\x7b'`'\x7d`" =
      [.substitution 1 "'`'".toList, .char '`'] := by cbv
  refine ⟨fun k above below => ?_, rfl, parse_of_tokens scanned cut (.cons (.substitution 1 tick) (.cons (.char _) .nil))
    (.expression _ (.char _ .nil))⟩
  rw [scanned]
  simp [CodeFragments.contains, above, below]

end Folio.Template
