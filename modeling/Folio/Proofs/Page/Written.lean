import Folio.Page.Basic
import Folio.Proofs.Keyed
import Folio.Proofs.Text.Lines
import Folio.Proofs.Text.Run

/-!
# Pages that are written

A header can be written line by line, a key and a value on each, and be read again.  A line is known
by the colon after its key: it is neither blank nor a delimiter, and the value may hold
whatever fits on a line.  The body after the closing line is not looked at.

Main statement: `parse_written`.
-/

namespace Folio.Page

open Text (blankChars isBlank linesOf trimChars trimEndChars trimStartChars)

/-! ## Writing -/

/-- A line ends with a line feed, or with a carriage return and a line feed. -/
inductive LineEnd where
  | feed
  | returnFeed
  deriving DecidableEq, Repr

def LineEnd.chars : LineEnd → List Char
  | .feed => ['\n']
  | .returnFeed => ['\r', '\n']

/-- A field as it is written: a key without blanks and colons, and a value without line feeds. -/
structure FieldLine where
  key : String
  value : String
  ending : LineEnd
  present : key ≠ ""
  plain : ∀ c ∈ key.toList, isBlank c = false ∧ c ≠ ':'
  oneLine : '\n' ∉ value.toList

def FieldLine.chars (l : FieldLine) : List Char :=
  l.key.toList ++ ':' :: ' ' :: (l.value.toList ++ l.ending.chars)

def FieldLine.read (l : FieldLine) : Except FormatFault Expr :=
  Expr.parseField l.key (Text.trim l.value)

def FieldLine.Reads (l : FieldLine) (field : String × Expr) : Prop :=
  l.key = field.1 ∧ l.read = .ok field.2

def delimiterLine (ending : LineEnd) : List Char :=
  "---".toList ++ ending.chars

def headerLines (opening : LineEnd) (lines : List FieldLine) (closing : LineEnd) : List (List Char) :=
  delimiterLine opening :: (lines.map FieldLine.chars ++ [delimiterLine closing])

/-- The text of a page: its header and then its body. -/
def written (opening : LineEnd) (lines : List FieldLine) (closing : LineEnd) (body : String) : String :=
  String.ofList ((headerLines opening lines closing).flatten ++ body.toList)

variable {l : FieldLine} {lines before after : List FieldLine} {fields known : Fields} {number : ℕ} {p : Char → Bool}
  {s t rest : List Char} {c : Char} {fault : FormatFault}

/-! ## Lines -/

theorem LineEnd.exists_feed (ending : LineEnd) : ∃ s, ending.chars = s ++ ['\n'] ∧ '\n' ∉ s := by
  cases ending with
  | feed => exact ⟨[], rfl, by simp⟩
  | returnFeed => exact ⟨['\r'], rfl, by decide⟩

theorem headerLines_whole (opening : LineEnd) (lines : List FieldLine) (closing : LineEnd) :
    ∀ line ∈ headerLines opening lines closing, ∃ s, line = s ++ ['\n'] ∧ '\n' ∉ s := by
  have delimiter : ∀ ending : LineEnd, ∃ s, delimiterLine ending = s ++ ['\n'] ∧ '\n' ∉ s := fun ending => by
    obtain ⟨s, spelled, oneLine⟩ := ending.exists_feed
    exact ⟨"---".toList ++ s, by rw [delimiterLine, spelled, List.append_assoc], by simpa using oneLine⟩
  intro line mem
  obtain rfl | mem := List.mem_cons.mp mem
  · exact delimiter opening
  obtain field | last := List.mem_append.mp mem
  · obtain ⟨l, -, rfl⟩ := List.mem_map.mp field
    obtain ⟨s, spelled, oneLine⟩ := l.ending.exists_feed
    refine ⟨l.key.toList ++ ':' :: ' ' :: (l.value.toList ++ s), by simp [FieldLine.chars, spelled], ?_⟩
    have key : '\n' ∉ l.key.toList := fun mem => absurd (l.plain '\n' mem).1 (by decide)
    simp [key, l.oneLine, oneLine]
  · obtain rfl := List.mem_singleton.mp last
    exact delimiter closing

theorem linesOf_written (opening : LineEnd) (lines : List FieldLine) (closing : LineEnd) (body : String) :
    linesOf (written opening lines closing body).toList =
      delimiterLine opening :: (lines.map FieldLine.chars ++ delimiterLine closing :: linesOf body.toList) := by
  rw [written, String.toList_ofList, Text.linesOf_flatten (headerLines_whole opening lines closing), headerLines]
  simp

/-! ## What a line means -/

theorem feed_opening (ending : LineEnd) :
    HeaderState.start.feed false (delimiterLine ending) = .ok (.goOn ⟨true, 1, []⟩) := by
  cases ending <;> rfl

theorem feed_closing (ending : LineEnd) (later : 0 < number) :
    HeaderState.feed ⟨true, number, known⟩ false (delimiterLine ending) = .ok (.closed known) := by
  have line : headerLine (number + 1) (delimiterLine ending) = "---".toList := by
    rw [headerLine, if_neg (by omega)]
    cases ending <;> rfl
  have closes : isDelimiter "---".toList = true := by decide
  simp only [HeaderState.feed, line, closes, if_true]

/-- The end of its line is no part of a field, nor is what is trimmed from its value. -/
theorem headerLine_field (l : FieldLine) (later : 1 < number) :
    ∃ rest, headerLine number l.chars = l.key.toList ++ ':' :: rest ∧ trimChars rest = trimChars l.value.toList := by
  have blank : ∀ c, (c == '\n' || c == '\r') = true → isBlank c = true := by
    intro c ends
    obtain rfl | rfl : c = '\n' ∨ c = '\r' := by simpa using ends
    · decide
    · decide
  have around : ∀ c ∈ l.ending.chars, isBlank c = true := by
    cases l.ending <;> simp [LineEnd.chars, isBlank, blankChars]
  obtain ⟨ending, cut, ends⟩ :=
    Text.dropEnd_suffix (fun c => c == '\n' || c == '\r') (' ' :: (l.value.toList ++ l.ending.chars))
  refine ⟨_, by rw [headerLine, if_neg (by omega), FieldLine.chars, Text.dropEnd_append (by decide)], ?_⟩
  rw [← Text.trimChars_append (fun c mem => blank c (ends c mem)), ← cut, ← Text.trimChars_append around l.value.toList]
  rfl

theorem readField_line (l : FieldLine) (number : ℕ) (same : trimChars rest = trimChars l.value.toList) :
    readField number (l.key.toList ++ ':' :: rest) =
      match l.read with
      | .ok e => .ok (l.key, e)
      | .error fault => .error (.field number fault) := by
  obtain ⟨key, after⟩ := Text.takeWhile_run (p := (· != ':')) (s := l.key.toList) (t := ':' :: rest)
    (fun c mem => by simpa using (l.plain c mem).2) (by simp)
  have blanks : ∀ c ∈ l.key.toList, isBlank c = false := fun c mem => (l.plain c mem).1
  have valid : (l.key.toList.isEmpty || l.key.toList.any isBlank) = false := by
    simpa [l.present] using blanks
  rw [readField, after]
  dsimp only
  rw [key, Text.trimChars_eq_self blanks, valid, if_neg Bool.false_ne_true, String.ofList_toList, same]
  rfl

theorem feed_field (l : FieldLine) (later : 0 < number) :
    HeaderState.feed ⟨true, number, known⟩ false l.chars =
      match l.read with
      | .ok e => .ok (.goOn ⟨true, number + 1, Keyed.set l.key e known⟩)
      | .error fault => .error (.field (number + 1) fault) := by
  obtain ⟨rest, line, same⟩ := headerLine_field l (Nat.succ_lt_succ later)
  have shown : (l.key.toList ++ ':' :: rest).all isBlank = false := by
    have colon : isBlank ':' = false := by decide
    rw [List.all_append, List.all_cons, colon, Bool.false_and, Bool.and_false]
  have noDelimiter : isDelimiter (l.key.toList ++ ':' :: rest) = false := by
    rw [isDelimiter, trimEndChars, Text.dropEnd_append (by decide), beq_eq_false_iff_ne]
    intro dashes
    have colon : ':' ∈ "---".toList := dashes ▸ by simp
    exact absurd colon (by decide)
  simp only [HeaderState.feed, line, shown, noDelimiter, readField_line l (number + 1) same, if_true,
    Bool.false_eq_true, if_false, Bool.or_self]
  cases l.read <;> rfl

/-! ## Reading a header line by line -/

theorem splitLines_fields (reads : List.Forall₂ FieldLine.Reads lines fields) (later : 0 < number)
    (rest : List (List Char)) :
    splitLines false ⟨true, number, known⟩ (lines.map FieldLine.chars ++ rest) =
      splitLines false ⟨true, number + lines.length, Keyed.setAll fields known⟩ rest := by
  induction reads generalizing number known with
  | nil => rfl
  | @cons l field lines fields here below ih =>
    obtain ⟨key, read⟩ := here
    rw [List.map_cons, List.cons_append, splitLines, feed_field l later, read]
    dsimp only
    rw [ih (Nat.succ_pos number), Nat.succ_add_eq_add_succ, key]
    rfl

theorem FieldLine.reads_or_fails (lines : List FieldLine) :
    (∃ fields, List.Forall₂ FieldLine.Reads lines fields) ∨ ∃ before l after fields fault,
      lines = before ++ l :: after ∧ List.Forall₂ FieldLine.Reads before fields ∧ l.read = .error fault := by
  induction lines with
  | nil => exact .inl ⟨[], .nil⟩
  | cons l lines ih =>
    cases read : l.read with
    | error fault => exact .inr ⟨[], l, lines, [], fault, rfl, .nil, read⟩
    | ok e =>
      obtain ⟨fields, reads⟩ | ⟨before, other, after, fields, fault, rfl, reads, fails⟩ := ih
      · exact .inl ⟨(l.key, e) :: fields, .cons ⟨rfl, read⟩ reads⟩
      · exact .inr ⟨l :: before, other, after, (l.key, e) :: fields, fault, rfl, .cons ⟨rfl, read⟩ reads, fails⟩

/-! ## Main statement -/

/-- A page that is written is read again.  If every line is read as a field, the header has these
fields, the last one under each key, and the body is the one that was written, whatever it is.  If the
value of a line is at fault, and those before it are not, the fault is that of this line.  One
of the two is the case. -/
theorem parse_written (opening : LineEnd) (lines : List FieldLine) (closing : LineEnd) (body : String) :
    (∀ fields, List.Forall₂ FieldLine.Reads lines fields →
      ∃ header, parse (written opening lines closing body) = .ok ⟨header, body⟩ ∧ Keyed.Ascending header ∧
        ∀ key, Keyed.get? key header = Keyed.get? key fields.reverse) ∧
    (∀ before l after fields fault, lines = before ++ l :: after → List.Forall₂ FieldLine.Reads before fields →
      l.read = .error fault →
        parse (written opening lines closing body) = .error (.field (before.length + 2) fault)) ∧
    ((∃ fields, List.Forall₂ FieldLine.Reads lines fields) ∨ ∃ before l after fields fault,
      lines = before ++ l :: after ∧ List.Forall₂ FieldLine.Reads before fields ∧ l.read = .error fault) := by
  have opened : ∀ rest, splitLines false .start (delimiterLine opening :: rest) = splitLines false ⟨true, 1, []⟩ rest :=
    fun rest => by rw [splitLines, feed_opening]
  rw [parse, split, linesOf_written, opened]
  refine ⟨?_, ?_, FieldLine.reads_or_fails lines⟩
  · intro fields reads
    refine ⟨Keyed.setAll fields [], ?_, Keyed.ascending_nil.setAll fields, fun key => ?_⟩
    · rw [splitLines_fields reads Nat.one_pos, splitLines, feed_closing closing (by omega)]
      dsimp only
      rw [Text.flatten_linesOf, String.ofList_toList]
    · rw [Keyed.get?_setAll, show Keyed.get? key ([] : Fields) = none from rfl, Option.or_none]
  · rintro before l after fields fault rfl reads fails
    have number : 1 + before.length + 1 = before.length + 2 := by omega
    rw [List.map_append, List.append_assoc, splitLines_fields reads Nat.one_pos, List.map_cons, List.cons_append,
      splitLines, feed_field l (by omega), fails, number]

/-- A value is read as a list, unless its key says otherwise or there is nothing in it. -/
theorem FieldLine.read_plain (l : FieldLine) (plain : l.key ∉ ["tags", "category", "title", "date", "layout"])
    (text : String) (shown : Text.trim l.value = text ∧ Text.isBlankText text = false) :
    l.read = Expr.parse .laxArray text := by
  obtain ⟨trimmed, shown⟩ := shown
  simp only [List.mem_cons, List.not_mem_nil, or_false, not_or] at plain
  obtain ⟨tags, category, line⟩ := plain
  rw [FieldLine.read, trimmed, Expr.parseField, if_neg tags, if_neg category, if_neg (by simp [shown]),
    if_neg (by simp [line])]

/-- A key that comes twice, a value with a colon that looks like a delimiter, a body of such lines; and a
quote that is left open on the third line. -/
theorem parse_written_twice :
    let line (key value : String) (present : key ≠ "") (plain : ∀ c ∈ key.toList, isBlank c = false ∧ c ≠ ':')
      (oneLine : '\n' ∉ value.toList) : FieldLine := ⟨key, value, .returnFeed, present, plain, oneLine⟩
    let n := line "n" "x: y" (by decide) (by simp [isBlank, blankChars]) (by decide)
    let dashes := line "---" " '---' " (by decide) (by simp [isBlank, blankChars]) (by decide)
    let again := line "n" "2" (by decide) (by simp [isBlank, blankChars]) (by decide)
    let quote := line "q" "'" (by decide) (by simp [isBlank, blankChars]) (by decide)
    written .feed [n, dashes, again] .returnFeed "---\n\x7b" =
        "---\nn: x: y\r\n---:  '---' \r\nn: 2\r\n---\r\n---\n\x7b" ∧
      (∃ header, parse (written .feed [n, dashes, again] .returnFeed "---\n\x7b") = .ok ⟨header, "---\n\x7b"⟩ ∧
        Keyed.get? "n" header = some (.value (.int 2)) ∧ Keyed.get? "---" header = some (.value (.str "---"))) ∧
      parse (written .feed [n, quote, again] .feed "") = .error (.field 3 (.expression "'" .openQuote)) := by
  intro line n dashes again quote
  have first : n.Reads ("n", .value (.str "x: y")) :=
    ⟨rfl, (n.read_plain (by decide) "x: y" (by decide +kernel)).trans (by with_unfolding_all rfl)⟩
  have second : dashes.Reads ("---", .value (.str "---")) :=
    ⟨rfl, (dashes.read_plain (by decide) "'---'" (by decide +kernel)).trans (by with_unfolding_all rfl)⟩
  have third : again.Reads ("n", .value (.int 2)) :=
    ⟨rfl, (again.read_plain (by decide) "2" (by decide +kernel)).trans (by with_unfolding_all rfl)⟩
  have opens : quote.read = .error (.expression "'" .openQuote) :=
    (quote.read_plain (by decide) "'" (by decide +kernel)).trans (by with_unfolding_all rfl)
  refine ⟨by decide +kernel, ?_, ?_⟩
  · obtain ⟨header, read, -, values⟩ := (parse_written .feed [n, dashes, again] .returnFeed "---\n\x7b").1 _
      (.cons first (.cons second (.cons third .nil)))
    exact ⟨header, read, (values "n").trans rfl, (values "---").trans rfl⟩
  · exact (parse_written .feed [n, quote, again] .feed "").2.1 [n] quote [again] _ _ rfl (.cons first .nil) opens

end Folio.Page
