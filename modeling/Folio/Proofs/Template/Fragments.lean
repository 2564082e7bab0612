import Folio.Proofs.Template.Seam
import Folio.Proofs.Template.Spans

/-!
# Spans and blocks of code

A span that is still open at the end of its line opens a block, which goes on below up to the first line
that closes it, or to the end of the text.  No other line is in a block, and every backtick and every tilde
of the text lies in a span or in a block.

Main statement: `fragments_cover_markers`.
-/

namespace Folio.CodeFragments

open Text (byteLength isBlank linesOf withoutLineEnd)

variable {c : Char} {line front back : List Char} {ranges : List (ℕ × ℕ)}

/-! ## Blocks line by line -/

def lines (text : String) : List (List Char) :=
  (linesOf text.toList).map withoutLineEnd

/-- A line that closes the block: the same indentation, a run of the same marker that is as long at
least, and blanks. -/
inductive ClosesBlock (fence : Fence) : List Char → Prop where
  | intro {indent blanks : List Char} {length : ℕ} (indented : ∀ c ∈ indent, c = ' ' ∨ c = '\t')
      (same : indent.length = fence.indent) (enough : fence.length ≤ length) (blank : ∀ c ∈ blanks, isBlank c = true) :
      ClosesBlock fence (indent ++ (List.replicate length fence.marker ++ blanks))

/-- The last of the spans of the line is not closed, and the block that it opens has this fence. -/
def OpensBlock (line : List Char) (ranges : List (ℕ × ℕ)) (fence : Fence) : Prop :=
  ∃ range, ranges.getLast? = some range ∧ OpenSpan line fence.marker fence.length range ∧ fence.indent = indentOf line

variable {fence : Fence}

theorem spans_scanSpans_line (line : List Char) : Spans line 0 (scanSpans 0 line).1 (scanSpans 0 line).2 :=
  spans_scanSpans 0 line [] rfl fun _ _ _ => by simp

theorem not_blank_of_isMarker (marked : isMarker c = true) : isBlank c = false := by
  obtain rfl | rfl : c = '\x60' ∨ c = '~' := by simpa [isMarker] using marked
  · decide
  · decide

theorem not_indent_of_isMarker (marked : isMarker c = true) : (c == ' ' || c == '\t') = false := by
  obtain rfl | rfl : c = '\x60' ∨ c = '~' := by simpa [isMarker] using marked
  · decide
  · decide

theorem drop_length_takeWhile (p : Char → Bool) (s : List Char) : s.drop (s.takeWhile p).length = s.dropWhile p := by
  have dropped : (s.takeWhile p ++ s.dropWhile p).drop (s.takeWhile p).length = s.dropWhile p := List.drop_left
  rwa [List.takeWhile_append_dropWhile] at dropped

theorem closes_iff (marked : isMarker fence.marker = true) (present : 0 < fence.length) :
    closes line fence = true ↔ ClosesBlock fence line := by
  have rest_eq (s : List Char) : s.drop (runLength fence.marker s) = s.dropWhile (· == fence.marker) :=
    drop_length_takeWhile ..
  have body_eq (s : List Char) : s.drop (indentOf s) = s.dropWhile fun c => c == ' ' || c == '\t' :=
    drop_length_takeWhile ..
  simp only [closes, rest_eq, body_eq, Bool.and_eq_true, decide_eq_true_eq, beq_iff_eq, List.all_eq_true]
  constructor
  · rintro ⟨⟨same, enough⟩, blank⟩
    generalize body : line.dropWhile (fun c => c == ' ' || c == '\t') = t at enough blank
    have split := List.takeWhile_append_dropWhile (p := fun c => c == ' ' || c == '\t') (l := line)
    rw [body, run_append_dropWhile fence.marker t] at split
    rw [← split]
    exact .intro (fun c mem => by simpa using List.mem_takeWhile_imp mem) same enough blank
  · rintro @⟨indent, blanks, length, indented, same, enough, blank⟩
    obtain ⟨length, rfl⟩ := Nat.exists_eq_succ_of_ne_zero (present.trans_le enough).ne'
    -- The indentation ends at the run, which is no indentation, and the run at the blanks.
    obtain ⟨indent_eq, body_eq⟩ := Text.takeWhile_run (p := fun c => c == ' ' || c == '\t')
      (t := List.replicate (length + 1) fence.marker ++ blanks) (by simpa using indented) fun c first => by
        obtain rfl : fence.marker = c := by simpa [List.replicate_succ] using first
        exact not_indent_of_isMarker marked
    obtain ⟨run_eq, blanks_eq⟩ := Text.takeWhile_run (p := (· == fence.marker))
      (s := List.replicate (length + 1) fence.marker) (t := blanks) (by simp [List.mem_replicate]) fun c first => by
        refine beq_eq_false_iff_ne.2 fun same => ?_
        have shown := blank c (List.mem_of_mem_head? first)
        rw [same, not_blank_of_isMarker marked] at shown
        cases shown
    rw [indentOf, indent_eq, body_eq, runLength, run_eq, blanks_eq]
    simpa using ⟨⟨same, enough⟩, blank⟩

theorem fenceAfter_append (opened : Option Fence) (lines below : List (List Char)) :
    fenceAfter opened (lines ++ below) = fenceAfter (fenceAfter opened lines) below := by
  induction lines generalizing opened with
  | nil => cases opened <;> rfl
  | cons line lines ih => cases opened <;> simp only [List.cons_append, fenceAfter, ih]

/-- The code on a line, by the block that is open where it begins. -/
def lineCode (opened : Option Fence) (line : List Char) : LineCode :=
  match opened with
  | some _ => .block
  | none => .spans (scanSpans 0 line).1

theorem getElem?_scanLines (opened : Option Fence) (lines : List (List Char)) (l : ℕ) :
    (scanLines opened lines)[l]? = lines[l]?.map (lineCode (fenceAfter opened (lines.take l))) := by
  induction lines generalizing opened l with
  | nil => cases opened <;> simp [scanLines]
  | cons line lines ih =>
    cases opened with
    | none =>
      cases l with
      | zero => rfl
      | succ l => simp only [scanLines, List.getElem?_cons_succ, List.take_succ_cons, fenceAfter, ih]
    | some fence =>
      cases l with
      | zero => rfl
      | succ l => simp only [scanLines, List.getElem?_cons_succ, List.take_succ_cons, fenceAfter, ih]

theorem getElem?_scan (text : String) (l : ℕ) :
    (scan text)[l]? = (lines text)[l]?.map (lineCode (fenceAfter none ((lines text).take l))) :=
  getElem?_scanLines none (lines text) l

/-- What a line does: it closes a block that is open, or it opens one. -/
theorem fenceAfter_succ {l : ℕ} {ls : List (List Char)} (here : ls[l]? = some line) :
    fenceAfter none (ls.take (l + 1)) = fenceAfter (fenceAfter none (ls.take l)) [line] := by
  rw [List.take_add_one, here, fenceAfter_append]
  rfl

theorem opensBlock_iff :
    OpensBlock line (scanSpans 0 line).1 fence ↔
      (scanSpans 0 line).2.map (fun (marker, length) => ⟨marker, length, indentOf line⟩) = some fence := by
  obtain ⟨marker, length, indent⟩ := fence
  constructor
  · rintro ⟨range, last, unclosed, rfl⟩
    rw [(spans_scanSpans_line line).opened_iff.2 ⟨range, last, unclosed⟩]
    rfl
  · intro opened
    obtain ⟨⟨marker', length'⟩, left, same⟩ := Option.map_eq_some_iff.1 opened
    obtain ⟨rfl, rfl, rfl⟩ := Fence.mk.inj same
    obtain ⟨range, last, unclosed⟩ := (spans_scanSpans_line line).opened_iff.1 left
    exact ⟨range, last, unclosed, rfl⟩

theorem OpensBlock.marked (opens : OpensBlock line ranges fence) : isMarker fence.marker = true ∧ 0 < fence.length := by
  obtain ⟨range, -, unclosed, -⟩ := opens
  obtain ⟨before, after, -, -, opening, -⟩ := unclosed.exists_split
  exact ⟨opening.marked, opening.present⟩

variable {text : String} {l : ℕ}

/-- The fence is open where a line begins: an earlier line opens it, and none between them closes it. -/
def OpenAt (text : String) (l : ℕ) (fence : Fence) : Prop :=
  ∃ o < l, ∃ line ranges, (lines text)[o]? = some line ∧ (scan text)[o]? = some (.spans ranges) ∧
    OpensBlock line ranges fence ∧ ∀ m, o < m → m < l → ∀ between, (lines text)[m]? = some between →
      ¬ ClosesBlock fence between

/-- A fence is open behind a line if it was open before and the line does not close it, or if the line
opens it. -/
theorem openAt_succ_iff (here : (lines text)[l]? = some line) :
    OpenAt text (l + 1) fence ↔ OpenAt text l fence ∧ ¬ ClosesBlock fence line ∨
      ∃ ranges, (scan text)[l]? = some (.spans ranges) ∧ OpensBlock line ranges fence := by
  constructor
  · rintro ⟨o, before, opening, ranges, there, found, opens, open_⟩
    obtain earlier | rfl := Nat.lt_succ_iff_lt_or_eq.1 before
    · exact .inl ⟨⟨o, earlier, opening, ranges, there, found, opens, fun m after within => open_ m after (by omega)⟩,
        open_ l earlier (Nat.lt_succ_self l) line here⟩
    · obtain rfl : line = opening := Option.some_inj.1 (here.symm.trans there)
      exact .inr ⟨ranges, found, opens⟩
  · rintro (⟨⟨o, before, opening, ranges, there, found, opens, open_⟩, stays⟩ | ⟨ranges, found, opens⟩)
    · refine ⟨o, by omega, opening, ranges, there, found, opens, fun m after within between next => ?_⟩
      obtain earlier | rfl := Nat.lt_succ_iff_lt_or_eq.1 within
      · exact open_ m after earlier between next
      · exact Option.some_inj.1 (here.symm.trans next) ▸ stays
    · exact ⟨l, Nat.lt_succ_self l, line, ranges, here, found, opens, fun m after within => by omega⟩

theorem fenceAfter_take_iff (inside : l ≤ (lines text).length) :
    fenceAfter none ((lines text).take l) = some fence ↔ OpenAt text l fence := by
  induction l generalizing fence with
  | zero => simp [OpenAt, fenceAfter]
  | succ l ih =>
    have ih (fence : Fence) := @ih fence (Nat.le_of_succ_le inside)
    have here : (lines text)[l]? = some (lines text)[l] := List.getElem?_eq_getElem inside
    have code := getElem?_scan text l
    generalize (lines text)[l] = line at here
    rw [fenceAfter_succ here, openAt_succ_iff here, code, here, ← ih]
    cases before : fenceAfter none ((lines text).take l) with
    | none =>
      simpa [fenceAfter, lineCode] using opensBlock_iff.symm
    | some current =>
      obtain ⟨o, -, opening, ranges, -, -, opens, -⟩ := (ih current).1 before
      have closing : closes line current = true ↔ ClosesBlock current line := closes_iff opens.marked.1 opens.marked.2
      by_cases closed : ClosesBlock current line
      · rw [fenceAfter, if_pos (closing.2 closed), fenceAfter]
        simp only [Option.map_some, lineCode, Option.some_inj, reduceCtorEq, false_and, exists_false, or_false, false_iff]
        rintro ⟨rfl, stays⟩
        exact stays closed
      · rw [fenceAfter, if_neg (closing.not.2 closed), fenceAfter]
        simp only [Option.map_some, lineCode, Option.some_inj, reduceCtorEq, false_and, exists_false, or_false]
        exact ⟨fun same => ⟨same, same ▸ closed⟩, And.left⟩

/-! ## The code of a text -/

/-- Spans of a line: one after the other within the line, each of them closed, or the last one and open up
to the end of the line. -/
structure LineSpans (line : List Char) (ranges : List (ℕ × ℕ)) : Prop where
  ordered : ranges.Pairwise fun a b => a.2 ≤ b.1
  within : ∀ range ∈ ranges, range.1 < range.2 ∧ range.2 ≤ byteLength line
  closed_or_last : ∀ range ∈ ranges, (ClosedSpan line range ∧ ∀ marker length, ¬ OpenSpan line marker length range) ∨
    ranges.getLast? = some range ∧ range.2 = byteLength line ∧ ∃ marker length, OpenSpan line marker length range

theorem lineSpans_scanSpans (line : List Char) : LineSpans line (scanSpans 0 line).1 where
  ordered := (spans_scanSpans_line line).ordered
  within _ mem := ((spans_scanSpans_line line).within _ mem).2
  closed_or_last _ mem :=
    ((spans_scanSpans_line line).closed_or_last mem).imp (fun closed => ⟨closed, closed.not_open⟩)
      fun ⟨last, marker, length, _, unclosed⟩ => ⟨last, unclosed.bounds.2, marker, length, unclosed⟩

theorem block_iff : (scan text)[l]? = some .block ↔ l < (lines text).length ∧ ∃ fence, OpenAt text l fence := by
  rw [getElem?_scan, Option.map_eq_some_iff]
  constructor
  · rintro ⟨line, here, block⟩
    have inside := (List.getElem?_eq_some_iff.1 here).1
    cases before : fenceAfter none ((lines text).take l) with
    | none => simp [before, lineCode] at block
    | some fence => exact ⟨inside, fence, (fenceAfter_take_iff inside.le).1 before⟩
  · rintro ⟨inside, fence, opened⟩
    refine ⟨(lines text)[l], List.getElem?_eq_getElem inside, ?_⟩
    rw [(fenceAfter_take_iff inside.le).2 opened]
    rfl

/-- A line of the text that is in no block has the spans that the line has by itself. -/
theorem eq_scanSpans (here : (lines text)[l]? = some line) (found : (scan text)[l]? = some (.spans ranges)) :
    ranges = (scanSpans 0 line).1 := by
  rw [getElem?_scan, here, Option.map_some, Option.some_inj] at found
  cases before : fenceAfter none ((lines text).take l) with
  | none => simpa [before, lineCode] using found.symm
  | some fence => simp [before, lineCode] at found

/-- A marker stands before the end of its line. -/
theorem exists_line_of_marker (whole : (linesOf text.toList)[l]? = some (front ++ c :: back)) (marked : isMarker c = true) :
    ∃ rest, (lines text)[l]? = some (front ++ c :: rest) := by
  obtain ⟨tail, split, ends⟩ := Template.exists_withoutLineEnd (front ++ c :: back)
  have here : (lines text)[l]? = some (withoutLineEnd (front ++ c :: back)) := by
    rw [lines, List.getElem?_map, whole]
    rfl
  have noEnd : c ∉ tail := by
    intro mem
    obtain rfl | rfl := ends c mem <;> cases marked
  rw [here]
  generalize withoutLineEnd (front ++ c :: back) = line at split
  obtain ⟨w, rfl, passed⟩ | ⟨w, rfl, passed⟩ := List.append_eq_append_iff.1 split
  · cases w with
    | nil => exact absurd (by rw [← List.nil_append tail, ← passed]; exact List.mem_cons_self) noEnd
    | cons d w =>
      obtain ⟨rfl, -⟩ := List.cons.inj passed
      exact ⟨w, rfl⟩
  · exact absurd (passed ▸ by simp) noEnd

theorem contains_marker (whole : (linesOf text.toList)[l]? = some (front ++ c :: back)) (marked : isMarker c = true) :
    (scan text).contains l (byteLength front) = true := by
  obtain ⟨rest, here⟩ := exists_line_of_marker whole marked
  rw [contains, getElem?_scan, here, Option.map_some]
  cases before : fenceAfter none ((lines text).take l) with
  | some fence => rfl
  | none =>
    obtain ⟨range, mem, above, below⟩ :=
      (spans_scanSpans_line (front ++ c :: rest)).covers rfl marked (Nat.zero_le _)
    simp only [lineCode, List.any_eq_true, Bool.and_eq_true, decide_eq_true_eq]
    exact ⟨range, mem, above, below⟩

/-- Code covers every marker.  The spans of a line stand one after the other within it; each of them is
closed on the line, or it is the last, goes on up to the end and opens a block.  The lines below are in
the block up to and including the first that closes it, or up to the end of the text, and no other line is. -/
theorem fragments_cover_markers (text : String) :
    (scan text).length = (lines text).length ∧
    (∀ (l : ℕ) front c back, (linesOf text.toList)[l]? = some (front ++ c :: back) → isMarker c = true →
      (scan text).contains l (byteLength front) = true) ∧
    (∀ (l : ℕ) line ranges, (lines text)[l]? = some line → (scan text)[l]? = some (.spans ranges) → LineSpans line ranges) ∧
    (∀ l : ℕ, (scan text)[l]? = some .block ↔ l < (lines text).length ∧ ∃ fence, OpenAt text l fence) := by
  refine ⟨?_, fun l front c back => contains_marker, fun l line ranges here found => ?_, fun l => block_iff⟩
  · rw [length_scan, lines, List.length_map]
  · rw [eq_scanSpans here found]
    exact lineSpans_scanSpans line

/-- A backtick in the middle of a line opens a block, which neither a line without a marker nor an indented
backtick closes. -/
theorem fragments_cover_markers_open_backtick :
    let text := "a \x60 \x7bb\x7d\n\x7bc\x7d\n  \x60\n\x60\n\x7bd\x7d"
    (scan text).length = 5 ∧ (scan text).contains 2 2 = true ∧ LineSpans ['\x7b', 'd', '\x7d'] [] ∧
      (scan text)[3]? = some .block := by
  intro text
  obtain ⟨length, marked, spans, block⟩ := fragments_cover_markers text
  have opens : OpensBlock "a \x60 \x7bb\x7d".toList [(2, 7)] ⟨'\x60', 1, 0⟩ := by
    have opening : WholeRun '\x60' 1 ['a', ' '] " \x7bb\x7d".toList := ⟨rfl, by decide, by decide, by decide⟩
    exact ⟨(2, 7), rfl, .intro opening (by decide), rfl⟩
  have opened : OpenAt text 3 ⟨'\x60', 1, 0⟩ := by
    refine ⟨0, by decide, _, _, by decide, by cbv, opens, fun m after within between found => ?_⟩
    rw [← closes_iff rfl (by decide)]
    obtain rfl | rfl : m = 1 ∨ m = 2 := by omega
    · obtain rfl : "\x7bc\x7d".toList = between := Option.some_inj.1 ((by decide : _ = _).symm.trans found)
      decide
    · obtain rfl : "  \x60".toList = between := Option.some_inj.1 ((by decide : _ = _).symm.trans found)
      decide
  exact ⟨length.trans (by decide), marked 2 [' ', ' '] '\x60' ['\n'] (by decide) rfl,
    spans 4 _ _ (by decide) (by cbv), (block 3).2 ⟨by decide, _, opened⟩⟩

end Folio.CodeFragments
