import Folio.Proofs.Page.ByteLines

/-!
# The readers of a header

A header is read in three ways: for a page, with the body after it; unread, to get at the
body alone; and from a file, of which no more is taken in than the header needs.  All
three feed lines to one state, and they agree.

Main statement: `header_readers_agree`.
-/

namespace Folio.Page

variable {path : String} {skipping : Bool} {raw : List Char} {lines rest : List (List Char)} {fields : Fields}
  {state next other : HeaderState} {bytes line front : List UInt8} {before after : List (List UInt8)}

/-! ## Skipping fields -/

/-- Two readers of one header have come equally far, whatever fields they have read. -/
structure HeaderState.Level (state other : HeaderState) : Prop where
  inside : other.inside = state.inside
  lines : other.lines = state.lines

/-- A line means the same to two readers. -/
inductive HeaderStep.Level : HeaderStep → HeaderStep → Prop where
  | goOn {state other : HeaderState} (level : state.Level other) : Level (.goOn state) (.goOn other)
  | closed (fields others : Fields) : Level (.closed fields) (.closed others)
  | absent : Level .absent .absent

theorem HeaderState.Level.feed {step : HeaderStep} (level : state.Level other) (fed : state.feed false raw = .ok step) :
    ∃ skipped, other.feed true raw = .ok skipped ∧ step.Level skipped := by
  obtain ⟨inside, lines⟩ := level
  simp only [HeaderState.feed, inside, lines] at fed ⊢
  by_cases opened : state.inside
  · simp only [if_pos opened] at fed ⊢
    by_cases closes : isDelimiter (headerLine (state.lines + 1) raw)
    · rw [if_pos closes] at fed ⊢
      cases fed
      exact ⟨_, rfl, .closed _ _⟩
    · rw [if_neg closes] at fed ⊢
      refine ⟨_, if_pos (by simp), ?_⟩
      split at fed
      · cases fed
        exact .goOn ⟨rfl, rfl⟩
      · split at fed
        · cases fed
          exact .goOn ⟨rfl, rfl⟩
        · contradiction
  · simp only [if_neg opened] at fed ⊢
    by_cases blank : (headerLine (state.lines + 1) raw).all Text.isBlank
    · rw [if_pos blank] at fed ⊢
      cases fed
      exact ⟨_, rfl, .goOn ⟨rfl, rfl⟩⟩
    rw [if_neg blank] at fed ⊢
    by_cases opens : isDelimiter (headerLine (state.lines + 1) raw)
    · rw [if_pos opens] at fed ⊢
      cases fed
      exact ⟨_, rfl, .goOn ⟨rfl, rfl⟩⟩
    · rw [if_neg opens] at fed ⊢
      cases fed
      exact ⟨_, rfl, .absent⟩

theorem HeaderState.Level.finish (level : state.Level other) (finished : state.finish = .ok fields) :
    ∃ others, other.finish = .ok others := by
  simp only [HeaderState.finish, level.inside] at finished ⊢
  split at finished
  · contradiction
  · rename_i outside
    exact ⟨other.fields, if_neg outside⟩

theorem HeaderState.Level.splitLines (level : state.Level other)
    (read : splitLines false state lines = .ok (fields, rest)) :
    ∃ skipped, splitLines true other lines = .ok (skipped, rest) := by
  induction lines generalizing state other with
  | nil =>
    rw [Page.splitLines] at read ⊢
    cases finished : state.finish with
    | error fault => simp [finished] at read
    | ok fields =>
      obtain ⟨others, finishedOther⟩ := level.finish finished
      rw [finished] at read
      obtain ⟨-, rfl⟩ := Prod.mk.inj (Except.ok.inj read)
      exact ⟨others, by rw [finishedOther]⟩
  | cons line lines ih =>
    cases fed : state.feed false line with
    | error fault =>
      rw [Page.splitLines, fed] at read
      contradiction
    | ok step =>
      obtain ⟨skipped, fedOther, same⟩ := level.feed fed
      rw [Page.splitLines, fed] at read
      rw [Page.splitLines, fedOther]
      cases same with
      | goOn level => exact ih level read
      | closed | absent =>
        cases read
        exact ⟨_, rfl⟩

/-! ## What is left for the body -/

theorem splitLines_suffix (read : splitLines skipping state lines = .ok (fields, rest)) : rest <:+ lines := by
  induction lines generalizing state with
  | nil =>
    rw [splitLines] at read
    split at read
    · cases read
      exact List.suffix_rfl
    · contradiction
  | cons raw lines ih =>
    rw [splitLines] at read
    split at read
    · contradiction
    · exact (ih read).trans (List.suffix_cons ..)
    · cases read
      exact List.suffix_cons ..
    · cases read
      exact List.suffix_rfl

theorem bodyOf_of_parse {text : String} {page : Page} (read : parse text = .ok page) :
    bodyOf text = .ok page.body ∧ page.body.toList <:+ text.toList := by
  rw [parse, split] at read
  split at read
  · rename_i fields rest found
    cases read
    have level : HeaderState.start.Level .start := ⟨rfl, rfl⟩
    obtain ⟨skipped, foundToo⟩ := level.splitLines found
    constructor
    · rw [bodyOf, split, foundToo]
      rfl
    · obtain ⟨before, cut⟩ := splitLines_suffix found
      refine ⟨before.flatten, ?_⟩
      rw [String.toList_ofList, ← List.flatten_append, cut, Text.flatten_linesOf]
  · contradiction

theorem parse_of_bodyOf {text : String} {fault : FormatFault} (failed : bodyOf text = .error fault) :
    ∃ fault, parse text = .error fault := by
  cases read : parse text with
  | error fault => exact ⟨fault, rfl⟩
  | ok page =>
    rw [(bodyOf_of_parse read).1] at failed
    contradiction

/-! ## Reading from a file -/

theorem readHeaderLines_encoded (path : String) (state : HeaderState) (lines : List (List Char)) :
    readHeaderLines path state (lines.map (·.flatMap String.utf8EncodeChar)) =
      ((splitLines false state lines).map Prod.fst).mapError .format := by
  induction lines generalizing state with
  | nil =>
    rw [List.map_nil, readHeaderLines, splitLines]
    cases state.finish <;> rfl
  | cons line lines ih =>
    rw [List.map_cons, readHeaderLines, ← Text.encode_ofList, Text.decode?_encode, splitLines]
    simp only [String.toList_ofList]
    cases state.feed false line with
    | error fault => rfl
    | ok step =>
      cases step with
      | goOn next => exact ih next
      | closed | absent => rfl

theorem readHeader_encode (path : String) (text : String) :
    readHeader path (Text.encode text) = ((parse text).map Page.header).mapError .format := by
  have encoded : Text.encode text = text.toList.flatMap String.utf8EncodeChar := by
    rw [← Text.encode_ofList, String.ofList_toList]
  rw [readHeader, encoded, byteLines_flatMap, readHeaderLines_encoded, parse, split]
  cases splitLines false .start (Text.linesOf text.toList) <;> rfl

/-- These lines are taken in, and the header goes on after them. -/
inductive HeaderState.GoesOn : HeaderState → List (List UInt8) → HeaderState → Prop where
  | nil (state : HeaderState) : GoesOn state [] state
  | cons {state next last : HeaderState} {bytes : List UInt8} {text : String} {lines : List (List UInt8)}
      (decoded : Text.decode? bytes = some text) (fed : state.feed false text.toList = .ok (.goOn next))
      (rest : GoesOn next lines last) : GoesOn state (bytes :: lines) last

/-- The header is done with at this line: it is no text, it is at fault, or the header does
not go on after it. -/
def HeaderState.StopsAt (state : HeaderState) (bytes : List UInt8) : Prop :=
  ∀ text, Text.decode? bytes = some text → ∀ next, state.feed false text.toList ≠ .ok (.goOn next)

/-- The bytes end with the line at which the header is done with. -/
def EndsHeader (front : List UInt8) : Prop :=
  ∃ before line state, byteLines front = before ++ [line] ∧ HeaderState.start.GoesOn before state ∧ state.StopsAt line

theorem HeaderState.GoesOn.readHeaderLines (goesOn : state.GoesOn before next) (after : List (List UInt8)) :
    readHeaderLines path state (before ++ after) = readHeaderLines path next after := by
  induction goesOn with
  | nil => rfl
  | cons decoded fed rest ih =>
    rw [List.cons_append, Page.readHeaderLines, decoded]
    simp only [fed]
    exact ih

theorem HeaderState.StopsAt.readHeaderLines (stops : state.StopsAt line) (after : List (List UInt8)) :
    readHeaderLines path state (line :: after) = readHeaderLines path state [line] := by
  rw [Page.readHeaderLines, Page.readHeaderLines]
  cases decoded : Text.decode? line with
  | none => rfl
  | some text =>
    dsimp only
    cases fed : state.feed false text.toList with
    | error fault => rfl
    | ok step =>
      cases step with
      | goOn next => exact absurd fed (stops text decoded next)
      | closed | absent => rfl

theorem goesOn_or_stops (state : HeaderState) (lines : List (List UInt8)) :
    (∃ last, state.GoesOn lines last) ∨
      ∃ before line after last, lines = before ++ line :: after ∧ state.GoesOn before last ∧ last.StopsAt line := by
  induction lines generalizing state with
  | nil => exact .inl ⟨state, .nil state⟩
  | cons line lines ih =>
    by_cases stops : state.StopsAt line
    · exact .inr ⟨[], line, lines, state, rfl, .nil state, stops⟩
    · simp only [HeaderState.StopsAt, not_forall, not_not] at stops
      obtain ⟨text, decoded, next, fed⟩ := stops
      obtain ⟨last, goesOn⟩ | ⟨before, stop, after, last, rfl, goesOn, stops⟩ := ih next
      · exact .inl ⟨last, .cons decoded fed goesOn⟩
      · exact .inr ⟨line :: before, stop, after, last, rfl, .cons decoded fed goesOn, stops⟩

theorem goesOn_or_endsHeader (bytes : List UInt8) :
    (∃ last, HeaderState.start.GoesOn (byteLines bytes) last) ∨
      ∃ front rest, bytes = front ++ rest ∧ EndsHeader front ∧ (rest = [] ∨ front.getLast? = some 10) := by
  obtain goesOn | ⟨before, line, after, last, cut, goesOn, stops⟩ := goesOn_or_stops .start (byteLines bytes)
  · exact .inl goesOn
  · have cut : byteLines bytes = (before ++ [line]) ++ after := by simpa using cut
    obtain ⟨front, rest, rfl, upper, -, whole⟩ := eq_append_of_byteLines_append cut
    exact .inr ⟨front, rest, rfl, ⟨before, line, last, upper, goesOn, stops⟩, by simpa using whole⟩

theorem EndsHeader.readHeader (ends : EndsHeader front) (whole : front.getLast? = some 10) (other : List UInt8) :
    readHeader path (front ++ other) = readHeader path front := by
  obtain ⟨before, line, state, upper, goesOn, stops⟩ := ends
  rw [Page.readHeader, byteLines_append whole, upper, List.append_assoc, goesOn.readHeaderLines, List.singleton_append,
    stops.readHeaderLines, Page.readHeader, upper, goesOn.readHeaderLines]

/-! ## The readers together -/

/-- The reader of files finds the header that the reader of pages finds, or the same fault;
the reader of bodies finds the body of the page, and fails only where there is no page; and
what a file holds after the line at which the header is done with is not looked at. -/
theorem header_readers_agree (path : String) :
    (∀ text, readHeader path (Text.encode text) = ((parse text).map Page.header).mapError .format) ∧
    (∀ text page, parse text = .ok page → bodyOf text = .ok page.body ∧ page.body.toList <:+ text.toList) ∧
    (∀ text fault, bodyOf text = .error fault → ∃ fault, parse text = .error fault) ∧
    (∀ bytes, (∃ last, HeaderState.start.GoesOn (byteLines bytes) last) ∨
      ∃ front rest, bytes = front ++ rest ∧ EndsHeader front ∧ (rest = [] ∨ front.getLast? = some 10)) ∧
    ∀ front, EndsHeader front → front.getLast? = some 10 → ∀ other,
      readHeader path (front ++ other) = readHeader path front :=
  ⟨readHeader_encode path, fun _ _ => bodyOf_of_parse, fun _ _ => parse_of_bodyOf, goesOn_or_endsHeader,
    fun _ ends whole other => ends.readHeader whole other⟩

theorem header_readers_agree_field :
    EndsHeader (Text.encode "---\nn: 1\n---\n") ∧ ∀ other,
      readHeader "a.md" (Text.encode "---\nn: 1\n---\n" ++ other) = .ok [("n", .value (.int 1))] := by
  have opened : HeaderState.start.feed false "---\n".toList = .ok (.goOn ⟨true, 1, []⟩) := by with_unfolding_all rfl
  have field : HeaderState.feed ⟨true, 1, []⟩ false "n: 1\n".toList =
      .ok (.goOn ⟨true, 2, [("n", .value (.int 1))]⟩) := by with_unfolding_all rfl
  have closes : HeaderState.feed ⟨true, 2, [("n", .value (.int 1))]⟩ false "---\n".toList =
      .ok (.closed [("n", .value (.int 1))]) := by with_unfolding_all rfl
  have ends : EndsHeader (Text.encode "---\nn: 1\n---\n") := by
    refine ⟨[Text.encode "---\n", Text.encode "n: 1\n"], Text.encode "---\n", _, by decide,
      .cons (Text.decode?_encode _) opened (.cons (Text.decode?_encode _) field (.nil _)), ?_⟩
    intro text decoded next fed
    rw [Text.decode?_encode] at decoded
    cases decoded
    cases closes.symm.trans fed
  have read : parse "---\nn: 1\n---\n" = .ok ⟨[("n", .value (.int 1))], ""⟩ := by with_unfolding_all rfl
  obtain ⟨fromFile, -, -, -, unread⟩ := header_readers_agree "a.md"
  refine ⟨ends, fun other => ?_⟩
  rw [unread _ ends (by decide) other, fromFile, read]
  rfl

end Folio.Page
