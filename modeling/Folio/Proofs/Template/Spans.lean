import Folio.Proofs.Template.Code

/-!
# Spans of code on a line

What is code on a line, said of the line itself.  A span begins with a whole run of backticks or of tildes
and ends with the next whole run of the same marker that is as long at least, or, where there is none, at
the end of the line.  Every marker lies in a span.

Main statements: `spans_scanSpans`, and `Spans.covers`, `Spans.ordered`, `Spans.closed_or_last`.
-/

namespace Folio.CodeFragments

open Text (byteLength)

variable {marker c : Char} {length close run bytes column : ℕ} {before inner after rest s line front back : List Char}

/-! ## Runs of a marker -/

/-- Between what stands before it and after it the run of so many markers is whole. -/
structure WholeRun (marker : Char) (length : ℕ) (before after : List Char) : Prop where
  marked : isMarker marker = true
  present : 0 < length
  front : before.getLast? ≠ some marker
  back : after.head? ≠ some marker

theorem byteLength_replicate (marked : isMarker marker = true) (length : ℕ) :
    byteLength (List.replicate length marker) = length := by
  induction length with
  | zero => rfl
  | succ length ih => rw [List.replicate_succ, byteLength, Template.utf8Size_of_isMarker marked, ih, Nat.add_comm]

/-- A text without the character lies on one side of it. -/
theorem infix_of_notMem {t a b : List Char} (absent : c ∉ t) (isInfix : t <:+: a ++ c :: b) : t <:+: a ∨ t <:+: b := by
  obtain ⟨u, v, split⟩ := isInfix
  obtain ⟨w, rfl, -⟩ | ⟨w, passed, whole⟩ := List.append_eq_append_iff.1 split
  · exact .inl ⟨u, w, rfl⟩
  · cases w with
    | nil => exact .inl ⟨u, [], by simpa using passed⟩
    | cons d w =>
      obtain ⟨rfl, rfl⟩ := List.cons.inj whole
      obtain ⟨x, rfl, spelled⟩ | ⟨x, rfl, spelled⟩ := List.append_eq_append_iff.1 passed
      · exact absurd (spelled ▸ by simp) absent
      · cases x with
        | nil => exact absurd (by rw [← List.nil_append t, ← spelled]; exact List.mem_cons_self) absent
        | cons d x =>
          obtain ⟨rfl, rfl⟩ := List.cons.inj spelled
          exact .inr ⟨x, v, rfl⟩

theorem notMem_replicate (other : c ≠ marker) (length : ℕ) : c ∉ List.replicate length marker :=
  fun mem => other (List.eq_of_mem_replicate mem)

/-- The run that closes a span is whole, long enough, and the first of this length. -/
theorem closingRun_found (marked : isMarker marker = true) (present : 0 < length)
    (found : closingRun? marker length run s = some (bytes, rest)) :
    ∃ inner close, List.replicate run marker ++ s = inner ++ (List.replicate close marker ++ rest) ∧
      length ≤ close ∧ inner.getLast? ≠ some marker ∧ rest.head? ≠ some marker ∧
      ¬ List.replicate length marker <:+: inner ∧ run + bytes = byteLength inner + close := by
  have nothing : ¬ List.replicate length marker <:+: [] := by
    simp [List.infix_nil, Nat.pos_iff_ne_zero.1 present]
  induction s generalizing run bytes with
  | nil =>
    rw [closingRun?] at found
    split_ifs at found with enough
    cases found
    exact ⟨[], run, by simp, enough.2, by simp, by simp, nothing, by simp [byteLength]⟩
  | cons c s ih =>
    rw [closingRun?] at found
    split_ifs at found with same enough
    · obtain ⟨⟨more, others⟩, onward, eq⟩ := Option.map_eq_some_iff.1 found
      obtain ⟨rfl, rfl⟩ := Prod.mk.inj eq
      obtain ⟨inner, close, split, enough, last, stops, first, size⟩ := ih onward
      refine ⟨inner, close, ?_, enough, last, stops, first, ?_⟩
      · rw [← split, same, List.replicate_succ', List.append_assoc]
        rfl
      · rw [← size, same, Template.utf8Size_of_isMarker marked]
        omega
    · cases found
      exact ⟨[], run, by simp, enough.2, by simp, by simpa using same, nothing, by simp [byteLength]⟩
    · obtain ⟨⟨more, others⟩, onward, eq⟩ := Option.map_eq_some_iff.1 found
      obtain ⟨rfl, rfl⟩ := Prod.mk.inj eq
      obtain ⟨inner, close, split, long, last, stops, first, size⟩ := ih onward
      have short : ¬ List.replicate length marker <:+: List.replicate run marker := by
        intro inside
        have fits := inside.length_le
        rw [List.length_replicate, List.length_replicate] at fits
        exact enough ⟨by omega, fits⟩
      refine ⟨List.replicate run marker ++ c :: inner, close, ?_, long, ?_, stops, ?_, ?_⟩
      · rw [List.replicate_zero, List.nil_append] at split
        rw [split, List.append_assoc, List.cons_append]
      · rw [List.getLast?_append, List.getLast?_cons]
        cases ended : inner.getLast? with
        | none => simpa using same
        | some d => simpa [ended] using last
      · exact fun inside => (infix_of_notMem (notMem_replicate same length) inside).elim short first
      · rw [Text.byteLength_append, byteLength_replicate marked, byteLength]
        omega

/-- Without a run that closes the span there is no run of this length. -/
theorem closingRun_missing (present : 0 < length) (missing : closingRun? marker length run s = none) :
    ¬ List.replicate length marker <:+: List.replicate run marker ++ s := by
  have short {run : ℕ} (few : ¬ (0 < run ∧ length ≤ run)) :
      ¬ List.replicate length marker <:+: List.replicate run marker := by
    intro inside
    have fits := inside.length_le
    rw [List.length_replicate, List.length_replicate] at fits
    exact few ⟨by omega, fits⟩
  induction s generalizing run with
  | nil =>
    rw [closingRun?] at missing
    split_ifs at missing with enough
    simpa using short enough
  | cons c s ih =>
    rw [closingRun?] at missing
    split_ifs at missing with same enough
    · subst same
      have onward := ih (Option.map_eq_none_iff.1 missing)
      rwa [List.replicate_succ', List.append_assoc, List.singleton_append] at onward
    · have onward := ih (Option.map_eq_none_iff.1 missing)
      exact fun inside => (infix_of_notMem (notMem_replicate same length) inside).elim (short enough) onward

/-! ## Spans of a line -/

/-- The span of the line is closed: from a whole run up to the end of the next whole run of the same
marker that is as long at least. -/
inductive ClosedSpan : List Char → ℕ × ℕ → Prop where
  | intro {marker : Char} {length close : ℕ} {before inner after : List Char}
      (opening : WholeRun marker length before (inner ++ (List.replicate close marker ++ after)))
      (closing : WholeRun marker close (before ++ (List.replicate length marker ++ inner)) after)
      (enough : length ≤ close) (first : ¬ List.replicate length marker <:+: inner) :
      ClosedSpan (before ++ (List.replicate length marker ++ (inner ++ (List.replicate close marker ++ after))))
        (byteLength before, byteLength before + length + byteLength inner + close)

/-- The span of the line is not closed: from a whole run of so many markers up to the end of the line,
on which no run of the same marker that is as long follows. -/
inductive OpenSpan : List Char → Char → ℕ → ℕ × ℕ → Prop where
  | intro {marker : Char} {length : ℕ} {before after : List Char} (opening : WholeRun marker length before after)
      (missing : ¬ List.replicate length marker <:+: after) :
      OpenSpan (before ++ (List.replicate length marker ++ after)) marker length
        (byteLength before, byteLength before + length + byteLength after)

/-- On the line there is no marker from the one column up to the other. -/
def Unmarked (line : List Char) (column stop : ℕ) : Prop :=
  ∀ front c back, line = front ++ c :: back → isMarker c = true → column ≤ byteLength front → stop ≤ byteLength front

/-- The spans of a line from a column on, in order, and the marker and length of the run that is left
open.  There are no markers between them. -/
inductive Spans (line : List Char) : ℕ → List (ℕ × ℕ) → Option (Char × ℕ) → Prop where
  | nil {column : ℕ} (unmarked : Unmarked line column (byteLength line)) : Spans line column [] none
  | closed {column first last : ℕ} {ranges : List (ℕ × ℕ)} {opened : Option (Char × ℕ)} (after : column ≤ first)
      (unmarked : Unmarked line column first) (span : ClosedSpan line (first, last))
      (others : Spans line last ranges opened) : Spans line column ((first, last) :: ranges) opened
  | opened {column first last : ℕ} {marker : Char} {length : ℕ} (after : column ≤ first)
      (unmarked : Unmarked line column first) (span : OpenSpan line marker length (first, last)) :
      Spans line column [(first, last)] (some (marker, length))

variable {stop : ℕ} {ranges : List (ℕ × ℕ)} {opened : Option (Char × ℕ)}

theorem Unmarked.step (noMarker : isMarker c = false)
    (unmarked : Unmarked (front ++ c :: s) (byteLength front + c.utf8Size) stop) :
    Unmarked (front ++ c :: s) (byteLength front) stop := by
  intro front' d back same marked above
  refine unmarked front' d back same marked ?_
  have other : c ≠ d := by
    rintro rfl
    rw [noMarker] at marked
    cases marked
  obtain ⟨w, rfl, split⟩ | ⟨w, rfl, split⟩ := List.append_eq_append_iff.1 same
  · cases w with
    | nil => exact absurd (List.cons.inj split).1 other
    | cons e w =>
      obtain ⟨rfl, -⟩ := List.cons.inj split
      rw [Text.byteLength_append, byteLength]
      omega
  · cases w with
    | nil => exact absurd (List.cons.inj split).1.symm other
    | cons e w =>
      have size := e.utf8Size_pos
      rw [Text.byteLength_append, byteLength] at above
      omega

theorem Spans.step (noMarker : isMarker c = false)
    (spans : Spans (front ++ c :: s) (byteLength front + c.utf8Size) ranges opened) :
    Spans (front ++ c :: s) (byteLength front) ranges opened := by
  cases spans with
  | nil unmarked => exact .nil (unmarked.step noMarker)
  | closed after unmarked span others => exact .closed (by omega) (unmarked.step noMarker) span others
  | opened after unmarked span => exact .opened (by omega) (unmarked.step noMarker) span

theorem unmarked_here (line : List Char) (column : ℕ) : Unmarked line column column :=
  fun _ _ _ _ _ above => above

theorem run_append_dropWhile (c : Char) (s : List Char) :
    s = List.replicate (runLength c s) c ++ s.dropWhile (· == c) := by
  have run : s.takeWhile (· == c) = List.replicate (runLength c s) c :=
    List.eq_replicate_iff.2 ⟨rfl, fun d mem => by simpa using List.mem_takeWhile_imp mem⟩
  rw [← run, List.takeWhile_append_dropWhile]

theorem head?_dropWhile_run (c : Char) (s : List Char) : (s.dropWhile (· == c)).head? ≠ some c := by
  intro first
  have stops := List.head?_dropWhile_not (· == c) s
  rw [first] at stops
  simp at stops

theorem runLength_pos (c : Char) (cs : List Char) : 0 < runLength c (c :: cs) := by
  simp [runLength]

theorem getLast?_append_replicate (s : List Char) (present : 0 < close) :
    (s ++ List.replicate close marker).getLast? = some marker := by
  obtain ⟨close, rfl⟩ := Nat.exists_eq_succ_of_ne_zero present.ne'
  rw [List.replicate_succ', ← List.append_assoc, List.getLast?_concat]

theorem wholeRun_here (marked : isMarker c = true) (whole : ∀ m ∈ (c :: s).head?, isMarker m = true → front.getLast? ≠ some m) :
    WholeRun c (runLength c (c :: s)) front ((c :: s).dropWhile (· == c)) :=
  ⟨marked, runLength_pos c s, whole c rfl marked, head?_dropWhile_run c (c :: s)⟩

/-- The run that is found closes a span, up to the end of that run. -/
theorem exists_closedSpan (opening : WholeRun marker length front s) (found : closingRun? marker length 0 s = some (bytes, rest)) :
    ∃ covered, List.replicate length marker ++ s = covered ++ rest ∧ byteLength covered = length + bytes ∧
      covered.getLast? = some marker ∧ rest.head? ≠ some marker ∧
      ClosedSpan (front ++ (List.replicate length marker ++ s)) (byteLength front, byteLength front + length + bytes) := by
  obtain ⟨inner, close, split, enough, last, stops, first, size⟩ :=
    closingRun_found opening.marked opening.present found
  rw [List.replicate_zero, List.nil_append] at split
  subst split
  have closing : WholeRun marker close (front ++ (List.replicate length marker ++ inner)) rest := by
    have apart : inner ≠ [] := by
      rintro rfl
      obtain ⟨k, rfl⟩ := Nat.exists_eq_add_of_lt (opening.present.trans_le enough)
      exact opening.back (by simp [List.replicate_succ])
    refine ⟨opening.marked, opening.present.trans_le enough, ?_, stops⟩
    rwa [← List.append_assoc, List.getLast?_append_of_ne_nil _ apart]
  have span := ClosedSpan.intro opening closing enough first
  rw [Nat.add_assoc _ (byteLength inner), ← size, Nat.zero_add] at span
  refine ⟨List.replicate length marker ++ (inner ++ List.replicate close marker), ?_, ?_, ?_, stops, span⟩
  · simp only [List.append_assoc]
  · simp only [Text.byteLength_append, byteLength_replicate opening.marked]
    omega
  · rw [← List.append_assoc, getLast?_append_replicate _ closing.present]

/-- Where no such run is found, the span goes on to the end of the line. -/
theorem openSpan_of_missing (opening : WholeRun marker length front s) (missing : closingRun? marker length 0 s = none) :
    OpenSpan (front ++ (List.replicate length marker ++ s)) marker length
      (byteLength front, byteLength front + byteLength (List.replicate length marker ++ s)) := by
  have alone : ¬ List.replicate length marker <:+: s := by
    simpa using closingRun_missing opening.present missing
  have span := OpenSpan.intro opening alone
  rwa [Text.byteLength_append, byteLength_replicate opening.marked, ← Nat.add_assoc]

/-- The scan of the rest of a line finds its spans, if no run of markers is cut where the rest begins. -/
theorem spans_scanSpans (column : ℕ) (s : List Char) :
    ∀ front, byteLength front = column → (∀ m ∈ s.head?, isMarker m = true → front.getLast? ≠ some m) →
      Spans (front ++ s) column (scanSpans column s).1 (scanSpans column s).2 := by
  fun_induction scanSpans column s with
  | case1 column =>
    rintro front rfl -
    refine .nil fun front' c back same _ above => ?_
    rw [List.append_nil] at same
    rw [same, Text.byteLength_append, byteLength] at above
    have size := c.utf8Size_pos
    omega
  | case2 column c cs marked length bytes rest found shorter spans opened later ih =>
    rintro front rfl whole
    rw [later] at ih
    obtain ⟨covered, split, size, last, stops, span⟩ := exists_closedSpan (wholeRun_here marked whole) found
    rw [← run_append_dropWhile] at split span
    have onward := ih (front ++ covered) (by rw [Text.byteLength_append, size, Nat.add_assoc]) fun m next _ same => by
      rw [List.getLast?_append, last, Option.some_or] at same
      exact stops (same ▸ next)
    rw [List.append_assoc, ← split] at onward
    exact .closed le_rfl (unmarked_here _ _) span onward
  | case3 column c cs marked length missing =>
    rintro front rfl whole
    have span := openSpan_of_missing (wholeRun_here marked whole) missing
    rw [← run_append_dropWhile] at span
    exact .opened le_rfl (unmarked_here _ _) span
  | case4 column c cs noMarker ih =>
    rintro front rfl -
    have noMarker : isMarker c = false := by simpa using noMarker
    have onward := ih (front ++ [c]) (by simp [Text.byteLength_append, byteLength]) fun m _ marked last => by
      rw [List.getLast?_concat] at last
      obtain rfl := Option.some_inj.1 last
      rw [noMarker] at marked
      cases marked
    rw [List.append_assoc, List.singleton_append] at onward
    exact onward.step noMarker

/-! ## What the spans of a line have in common -/

variable {range : ℕ × ℕ}

theorem append_inj_of_byteLength {front' back' : List Char} (same : front ++ back = front' ++ back')
    (sizes : byteLength front = byteLength front') : front = front' ∧ back = back' := by
  obtain ⟨w, rfl, split⟩ | ⟨w, rfl, split⟩ := List.append_eq_append_iff.1 same
  all_goals
    rw [Text.byteLength_append] at sizes
    cases w with
    | nil => simp [split]
    | cons c w =>
      have size := c.utf8Size_pos
      rw [byteLength] at sizes
      omega

/-- Only one whole run begins at a column of a line. -/
theorem WholeRun.unique {marker' : Char} {length' : ℕ} {before' after' : List Char}
    (run : WholeRun marker length before after) (run' : WholeRun marker' length' before' after')
    (same : before ++ (List.replicate length marker ++ after) = before' ++ (List.replicate length' marker' ++ after'))
    (sizes : byteLength before = byteLength before') : marker = marker' ∧ length = length' ∧ after = after' := by
  obtain ⟨-, runs⟩ := append_inj_of_byteLength same sizes
  have first {m : Char} {n : ℕ} (present : 0 < n) (t : List Char) : (List.replicate n m ++ t).head? = some m := by
    obtain ⟨n, rfl⟩ := Nat.exists_eq_succ_of_ne_zero present.ne'
    rfl
  obtain rfl : marker = marker' := by
    have heads := congrArg List.head? runs
    rwa [first run.present, first run'.present, Option.some_inj] at heads
  have split {n : ℕ} {t : List Char} (stops : t.head? ≠ some marker) :
      (List.replicate n marker ++ t).takeWhile (· == marker) = List.replicate n marker ∧
        (List.replicate n marker ++ t).dropWhile (· == marker) = t := by
    refine Text.takeWhile_run (fun c mem => by simpa using List.eq_of_mem_replicate mem) fun c mem => ?_
    refine beq_eq_false_iff_ne.2 fun same => ?_
    rw [same] at mem
    exact stops mem
  obtain ⟨run_eq, rest_eq⟩ := split (n := length) run.back
  rw [runs] at run_eq rest_eq
  obtain ⟨run_eq', rest_eq'⟩ := split (n := length') run'.back
  refine ⟨rfl, ?_, rest_eq.symm.trans rest_eq'⟩
  simpa using congrArg List.length (run_eq.symm.trans run_eq')

theorem OpenSpan.exists_split (span : OpenSpan line marker length range) :
    ∃ before after, line = before ++ (List.replicate length marker ++ after) ∧
      range = (byteLength before, byteLength before + length + byteLength after) ∧
      WholeRun marker length before after ∧ ¬ List.replicate length marker <:+: after := by
  obtain ⟨opening, missing⟩ := span
  exact ⟨_, _, rfl, rfl, opening, missing⟩

theorem OpenSpan.unique {marker' : Char} {length' : ℕ} (span : OpenSpan line marker length range)
    (span' : OpenSpan line marker' length' range) : marker = marker' ∧ length = length' := by
  obtain ⟨before, after, rfl, rfl, opening, -⟩ := span.exists_split
  obtain ⟨before', after', same, columns, opening', -⟩ := span'.exists_split
  obtain ⟨marker_eq, length_eq, -⟩ := opening.unique opening' same (Prod.mk.inj columns).1
  exact ⟨marker_eq, length_eq⟩

/-- A closed span is not open as well. -/
theorem ClosedSpan.not_open (span : ClosedSpan line range) (marker : Char) (length : ℕ) :
    ¬ OpenSpan line marker length range := by
  intro unclosed
  obtain @⟨m, n, close, front, inner, back, opening, closing, enough, -⟩ := span
  obtain ⟨before, after, same, columns, opening', missing⟩ := unclosed.exists_split
  obtain ⟨rfl, rfl, rfl⟩ := opening.unique opening' same (Prod.mk.inj columns).1
  -- The run that closes the span is one that the open span says is missing.
  obtain ⟨more, rfl⟩ := Nat.exists_eq_add_of_le enough
  exact missing ⟨inner, List.replicate more m ++ back, by simp only [List.replicate_add, List.append_assoc]⟩

theorem ClosedSpan.bounds (span : ClosedSpan line range) : range.1 < range.2 ∧ range.2 ≤ byteLength line := by
  obtain ⟨opening, closing, -, -⟩ := span
  have present := opening.present
  simp only [Text.byteLength_append, byteLength_replicate opening.marked]
  omega

theorem OpenSpan.bounds (span : OpenSpan line marker length range) :
    range.1 < range.2 ∧ range.2 = byteLength line := by
  obtain ⟨opening, -⟩ := span
  have present := opening.present
  simp only [Text.byteLength_append, byteLength_replicate opening.marked]
  omega

/-- Every marker on the line lies in a span. -/
theorem Spans.covers (spans : Spans line column ranges opened) (split : line = front ++ c :: back)
    (marked : isMarker c = true) (above : column ≤ byteLength front) :
    ∃ range ∈ ranges, range.1 ≤ byteLength front ∧ byteLength front < range.2 := by
  have inside : byteLength front < byteLength line := by
    have size := c.utf8Size_pos
    rw [split, Text.byteLength_append, byteLength]
    omega
  induction spans with
  | nil unmarked => exact absurd (unmarked front c back split marked above) (by omega)
  | @closed column first last ranges opened after unmarked span others ih =>
    have begins := unmarked front c back split marked above
    by_cases within : byteLength front < last
    · exact ⟨(first, last), List.mem_cons_self, begins, within⟩
    · obtain ⟨range, mem, here⟩ := ih (by omega)
      exact ⟨range, List.mem_cons_of_mem _ mem, here⟩
  | opened after unmarked span =>
    exact ⟨_, List.mem_singleton_self _, unmarked front c back split marked above, span.bounds.2 ▸ inside⟩

theorem Spans.within (spans : Spans line column ranges opened) :
    ∀ range ∈ ranges, column ≤ range.1 ∧ range.1 < range.2 ∧ range.2 ≤ byteLength line := by
  induction spans with
  | nil => simp
  | closed after unmarked span others ih =>
    have bounds := span.bounds
    refine List.forall_mem_cons.2 ⟨⟨after, bounds⟩, fun range mem => ?_⟩
    have later := ih range mem
    omega
  | opened after unmarked span => simpa using ⟨after, span.bounds.1, span.bounds.2.le⟩

theorem Spans.ordered (spans : Spans line column ranges opened) : ranges.Pairwise fun a b => a.2 ≤ b.1 := by
  induction spans with
  | nil => exact .nil
  | closed after unmarked span others ih =>
    exact List.pairwise_cons.2 ⟨fun range mem => (others.within range mem).1, ih⟩
  | opened => exact List.pairwise_singleton _ _

/-- Each span is closed, or it is the last one, with the run that is left open. -/
theorem Spans.closed_or_last (spans : Spans line column ranges opened) (mem : range ∈ ranges) :
    ClosedSpan line range ∨ ranges.getLast? = some range ∧
      ∃ marker length, opened = some (marker, length) ∧ OpenSpan line marker length range := by
  induction spans with
  | nil => contradiction
  | closed after unmarked span others ih =>
    obtain rfl | later := List.mem_cons.1 mem
    · exact .inl span
    · refine (ih later).imp_right fun ⟨last, unclosed⟩ => ⟨?_, unclosed⟩
      rw [List.getLast?_cons, last]
      rfl
  | opened after unmarked span =>
    obtain rfl := List.mem_singleton.1 mem
    exact .inr ⟨rfl, _, _, rfl, span⟩

/-- A run is left open exactly if the last span begins with it and is not closed. -/
theorem Spans.opened_iff (spans : Spans line column ranges opened) :
    opened = some (marker, length) ↔ ∃ range, ranges.getLast? = some range ∧ OpenSpan line marker length range := by
  constructor
  · rintro rfl
    generalize same : some (marker, length) = opened at spans
    induction spans with
    | nil => contradiction
    | closed after unmarked span others ih =>
      obtain ⟨range, last, unclosed⟩ := ih same
      refine ⟨range, ?_, unclosed⟩
      rw [List.getLast?_cons, last]
      rfl
    | opened after unmarked span =>
      cases same
      exact ⟨_, rfl, span⟩
  · rintro ⟨range, last, unclosed⟩
    obtain closed | ⟨-, marker', length', rfl, unclosed'⟩ := spans.closed_or_last (List.mem_of_getLast? last)
    · exact absurd unclosed (closed.not_open _ _)
    · obtain ⟨rfl, rfl⟩ := unclosed.unique unclosed'
      rfl

end Folio.CodeFragments
