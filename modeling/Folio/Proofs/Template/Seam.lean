import Folio.Entry.Document
import Folio.Proofs.Template.Unique
import Folio.Template.Render

/-!
# Templates one after the other

What stands on later lines does not change what earlier lines are read as, and nothing leaks from
earlier lines into later ones but a block of code that is still open.  So the nodes of two texts
stand one after the other where the first text ends a line.

Main statement: `templates_concatenate`.
-/

namespace Folio

open Text (EndsLine linesOf withoutLineEnd)

/-! ## Code line by line -/

namespace CodeFragments

/-- The block that is open after the lines. -/
def fenceAfter : Option Fence → List (List Char) → Option Fence
  | opened, [] => opened
  | some fence, line :: lines => fenceAfter (if closes line fence then none else some fence) lines
  | none, line :: lines =>
    fenceAfter ((scanSpans 0 line).2.map fun (marker, length) => ⟨marker, length, indentOf line⟩) lines

def openFence (text : String) : Option Fence :=
  fenceAfter none ((linesOf text.toList).map withoutLineEnd)

theorem scanLines_append (opened : Option Fence) (lines below : List (List Char)) :
    scanLines opened (lines ++ below) = scanLines opened lines ++ scanLines (fenceAfter opened lines) below := by
  induction lines generalizing opened with
  | nil => cases opened <;> rfl
  | cons line lines ih =>
    cases opened with
    | none => simp only [List.cons_append, scanLines, fenceAfter, ih]
    | some fence => simp only [List.cons_append, scanLines, fenceAfter, ih]

theorem length_scanLines (opened : Option Fence) (lines : List (List Char)) :
    (scanLines opened lines).length = lines.length := by
  induction lines generalizing opened with
  | nil => cases opened <;> rfl
  | cons line lines ih =>
    cases opened with
    | none => simp only [scanLines, List.length_cons, ih]
    | some fence => simp only [scanLines, List.length_cons, ih]

theorem length_scan (text : String) : (scan text).length = (linesOf text.toList).length := by
  rw [scan, length_scanLines, List.length_map]

/-- The code of later lines depends on earlier ones only through the block that is open. -/
theorem scan_append {a : String} (ended : EndsLine a.toList) (b : String) :
    scan (a ++ b) = scan a ++ scanLines (openFence a) ((linesOf b.toList).map withoutLineEnd) := by
  rw [scan, String.toList_append, Text.linesOf_append_of_endsLine ended, List.map_append, scanLines_append, scan,
    openFence]

theorem contains_append_left (fragments others : CodeFragments) {l : ℕ} (here : l < fragments.length) :
    contains (fragments ++ others) l = contains fragments l := by
  funext column
  simp only [contains]
  rw [List.getElem?_append_left here]

theorem contains_append_right (fragments others : CodeFragments) (l : ℕ) :
    contains (fragments ++ others) (fragments.length + l) = contains others l := by
  funext column
  simp only [contains]
  rw [List.getElem?_append_right (Nat.le_add_right _ _), Nat.add_sub_cancel_left]

end CodeFragments

namespace Template

/-! ## Cutting line by line -/

variable {isCode here below : ℕ → ℕ → Bool} {index : ℕ} {s s' : List Char} {marks : List Mark}

theorem linesTokens_append (isCode : ℕ → ℕ → Bool) (index : ℕ) (lines others : List (List Char)) :
    linesTokens isCode index (lines ++ others) =
      linesTokens isCode index lines ++ linesTokens isCode (index + lines.length) others := by
  induction lines generalizing index with
  | nil => rfl
  | cons line lines ih =>
    rw [List.cons_append, linesTokens, linesTokens, ih, List.append_assoc, List.length_cons, Nat.add_right_comm,
      Nat.add_assoc]

/-- A text is cut at the end of each line. -/
theorem textCut_append_iff (ended : EndsLine s) :
    TextCut isCode index (s ++ s') marks ↔
      ∃ front back, marks = front ++ back ∧ TextCut isCode index s front ∧
        TextCut isCode (index + (linesOf s).length) s' back := by
  simp only [textCut_iff, Text.linesOf_append_of_endsLine ended, linesTokens_append]
  constructor
  · exact exists_append_of_forall₂
  · rintro ⟨front, back, rfl, first, second⟩
    exact List.rel_append first second

/-- How a text is cut depends only on the code on its own lines. -/
theorem TextCut.congr {index' : ℕ} (cut : TextCut isCode index s marks)
    (same : ∀ l < (linesOf s).length, isCode (index + l) = here (index' + l)) : TextCut here index' s marks := by
  induction cut generalizing index' with
  | nil => exact .nil index'
  | @last index s marks present oneLine line =>
    rw [Text.linesOf_oneLine present oneLine] at same
    exact .last present oneLine (same 0 (by simp) ▸ line)
  | @line index s below marks others oneLine line rest ih =>
    rw [Text.linesOf_line oneLine, List.length_cons] at same
    -- Below the first line all numbers are one less in the rest, in both texts.
    refine .line oneLine (same 0 (by omega) ▸ line) (ih fun l inside => ?_)
    rw [Nat.add_assoc, Nat.add_comm 1, Nat.add_assoc, Nat.add_comm 1]
    exact same (l + 1) (by omega)

/-! ## Nodes one after the other -/

/-- The nodes of two templates one after the other; two literals that meet are one. -/
def joined (t u : Template) : Template :=
  match t.getLast?, u with
  | some (.literal x), .literal y :: more => t.dropLast ++ .literal (x ++ y) :: more
  | _, _ => t ++ u

theorem joined_cases (t u : Template) :
    (∃ front x y more, t = front ++ [.literal x] ∧ u = .literal y :: more ∧
      joined t u = front ++ .literal (x ++ y) :: more) ∨
    ((∀ a ∈ t.getLast?, ∀ b ∈ u.head?, Apart a b) ∧ joined t u = t ++ u) := by
  unfold joined
  split
  · rename_i x y more last
    obtain ⟨front, rfl⟩ := List.getLast?_eq_some_iff.1 last
    exact .inl ⟨front, x, y, more, rfl, rfl, by rw [List.dropLast_concat]⟩
  · -- Two literals would have been the first case.
    rename_i apart
    refine .inr ⟨fun a last b first => ?_, rfl⟩
    cases a with
    | expression | loop => cases b <;> trivial
    | literal x =>
      cases b with
      | expression | loop => trivial
      | literal y =>
        obtain ⟨more, rfl⟩ := List.head?_eq_some_iff.1 first
        exact absurd rfl (apart x y more last)

theorem nodesMarks_joined (t u : Template) : nodesMarks (joined t u) = nodesMarks t ++ nodesMarks u := by
  obtain ⟨front, x, y, more, rfl, rfl, same⟩ | ⟨-, same⟩ := joined_cases t u
  · rw [same]
    simp [nodesMarks_append, nodesMarks, nodeMarks, textMarks]
  · rw [same, nodesMarks_append]

theorem tidy_joined {t u : Template} (first : Tidy t) (second : Tidy u) : Tidy (joined t u) := by
  obtain ⟨front, x, y, more, rfl, rfl, same⟩ | ⟨apart, same⟩ := joined_cases t u
  · rw [same]
    obtain ⟨front_apart, -, last_apart⟩ := List.isChain_append.1 first.apart
    have here : Tidy (.literal (x ++ y) :: more) := by
      refine second.tail.cons_literal second.noLiteral_tail fun none => ?_
      cases first.each _ List.mem_concat_self with
      | literal present => exact present (String.append_eq_empty_iff.1 none).1
    refine ⟨fun node mem => ?_, List.isChain_append.2 ⟨front_apart, here.apart, fun a last b first => ?_⟩⟩
    · obtain mem | mem := List.mem_append.1 mem
      · exact first.each node (List.mem_append_left _ mem)
      · exact here.each node mem
    · -- What stands before the literal is apart from it, whatever it says.
      obtain rfl := Option.some_inj.1 first
      have beside := last_apart a last (.literal x) rfl
      cases a with
      | literal => exact beside
      | expression | loop => trivial
  · rw [same]
    refine ⟨fun node mem => ?_, List.isChain_append.2 ⟨first.apart, second.apart, apart⟩⟩
    obtain mem | mem := List.mem_append.1 mem
    · exact first.each node mem
    · exact second.each node mem

theorem renderNodes_append (r : Reducer) (nodes others : List Node) (s : Scope) :
    renderNodes r (nodes ++ others) s = (do
      let first ← renderNodes r nodes s
      let rest ← renderNodes r others s
      pure (first ++ rest)) := by
  induction nodes with
  | nil => simp only [List.nil_append, renderNodes, pure_bind, String.empty_append, bind_pure]
  | cons node nodes ih => simp only [List.cons_append, renderNodes, ih, bind_assoc, pure_bind, String.append_assoc]

theorem render_joined (t u : Template) (r : Reducer) (s : Scope) :
    (joined t u).render r s = (do
      let first ← t.render r s
      let rest ← u.render r s
      pure (first ++ rest)) := by
  obtain ⟨front, x, y, more, rfl, rfl, same⟩ | ⟨-, same⟩ := joined_cases t u
  · simp [same, Template.render, renderNodes_append, renderNodes, Node.render, String.append_assoc]
  · rw [same]
    exact renderNodes_append r t u s

/-! ## Texts one after the other -/

/-- Where the first text is read, the second is read after it as it is read alone. -/
theorem parseWith_append {a b : String} {t : Template} (ended : EndsLine a.toList)
    (sameHere : ∀ l < (linesOf a.toList).length, isCode l = here l)
    (sameBelow : ∀ l, isCode ((linesOf a.toList).length + l) = below l) (first : parseWith here a = .ok t) :
    (∀ u, parseWith below b = .ok u → parseWith isCode (a ++ b) = .ok (joined t u)) ∧
      ∀ w, parseWith isCode (a ++ b) = .ok w → ∃ u, parseWith below b = .ok u := by
  constructor
  · intro u second
    obtain ⟨cut, tidy⟩ := parseWith_eq_ok_iff_cut.1 first
    obtain ⟨cut', tidy'⟩ := parseWith_eq_ok_iff_cut.1 second
    refine parseWith_eq_ok_iff_cut.2 ⟨?_, tidy_joined tidy tidy'⟩
    rw [nodesMarks_joined, Cut, String.toList_append, textCut_append_iff ended]
    refine ⟨_, _, rfl, cut.congr fun l inside => ?_, cut'.congr fun l _ => ?_⟩
    · rw [Nat.zero_add, sameHere l inside]
    · rw [Nat.zero_add, Nat.zero_add, sameBelow l]
  · intro w whole
    obtain ⟨cut, -⟩ := parseWith_eq_ok_iff_cut.1 whole
    rw [Cut, String.toList_append, textCut_append_iff ended] at cut
    obtain ⟨front, back, same, cutFront, cutBack⟩ := cut
    have cutHere : Cut here a front := cutFront.congr fun l inside => by rw [Nat.zero_add, sameHere l inside]
    have cutBelow : Cut below b back := cutBack.congr fun l _ => by rw [Nat.zero_add, Nat.zero_add, sameBelow l]
    -- The loops of the first text are closed where it ends, so those of the second are closed on its own lines.
    obtain ⟨rfl, -⟩ := marks_of_parseWith cutHere first
    have nested := (wellNested_nodes t).of_append (same ▸ wellNested_nodes w)
    exact exists_parseWith_of_cut cutBelow nested

/-- If the first text is read, the second is read after it as it is read alone: it is accepted and
rendered after the first, or rejected. -/
def ReadsOn (read : String → Except FormatFault Template) (a b : String) : Prop :=
  ∀ t, read a = .ok t →
    (∀ u, read b = .ok u → read (a ++ b) = .ok (joined t u) ∧
      ∀ (r : Reducer) (s : Scope), (joined t u).render r s = (do
        let first ← t.render r s
        let rest ← u.render r s
        pure (first ++ rest))) ∧
      ∀ fault, read b = .error fault → ∃ other, read (a ++ b) = .error other

theorem readsOn_of_same {read : String → Except FormatFault Template} {a b : String} (ended : EndsLine a.toList)
    (readHere : read a = parseWith here a) (readBelow : read b = parseWith below b)
    (readBoth : read (a ++ b) = parseWith isCode (a ++ b))
    (sameHere : ∀ l < (linesOf a.toList).length, isCode l = here l)
    (sameBelow : ∀ l, isCode ((linesOf a.toList).length + l) = below l) : ReadsOn read a b := by
  intro t first
  rw [readHere] at first
  rw [readBelow, readBoth]
  obtain ⟨accepted, only⟩ := parseWith_append (b := b) ended sameHere sameBelow first
  refine ⟨fun u second => ⟨accepted u second, render_joined t u⟩, fun fault rejected => ?_⟩
  cases whole : parseWith isCode (a ++ b) with
  | error other => exact ⟨other, rfl⟩
  | ok w =>
    obtain ⟨u, second⟩ := only w whole
    rw [rejected] at second
    cases second

/-- Texts are templates one after the other where the first is empty or ends a line.  In the body of
a document no block of code may be open there; but the code on the lines of the first text is the
same whatever follows. -/
theorem templates_concatenate (a b : String) (ended : a = "" ∨ ∃ front, a = front ++ "\n") :
    ReadsOn parse a b ∧ (CodeFragments.openFence a = none → ReadsOn parseMarkdown a b) ∧
      (CodeFragments.scan (a ++ b)).take (linesOf a.toList).length = CodeFragments.scan a := by
  have ended : EndsLine a.toList := by
    obtain rfl | ⟨front, rfl⟩ := ended
    · simp [EndsLine]
    · simp [EndsLine]
  have scanned := CodeFragments.scan_append ended b
  refine ⟨?_, fun closed => ?_, ?_⟩
  · exact readsOn_of_same ended rfl rfl rfl (fun _ _ => rfl) fun _ => rfl
  · rw [closed, ← CodeFragments.scan] at scanned
    refine readsOn_of_same ended rfl rfl rfl (fun l inside => ?_) fun l => ?_
    · rw [scanned, CodeFragments.contains_append_left _ _ (by rwa [CodeFragments.length_scan])]
    · rw [scanned, ← CodeFragments.length_scan, CodeFragments.contains_append_right]
  · rw [scanned, ← CodeFragments.length_scan, List.take_left]

/-- Two literals meet at the seam; a brace that is not closed is rejected as it is alone; and after a
block of code that the first text closes a doubled brace is one brace again. -/
theorem templates_concatenate_lines :
    ("x\n" = "" ∨ ∃ front, "x\n" = front ++ "\n") ∧
      parse ("x\n" ++ "y\x7bz\x7d") = .ok [.literal "x\ny", .expression (.variable "z")] ∧
      (∃ fault, parse ("x\n" ++ "\x7b") = .error fault) ∧
      parseMarkdown ("```\n\x7b\n```\n" ++ "\x7d\x7d") = .ok [.literal "```\n\x7b\n```\n\x7d"] := by
  have line : "x\n" = "" ∨ ∃ front, "x\n" = front ++ "\n" := .inr ⟨"x", rfl⟩
  have block : "```\n\x7b\n```\n" = "" ∨ ∃ front, "```\n\x7b\n```\n" = front ++ "\n" := .inr ⟨"```\n\x7b\n```", rfl⟩
  have x : parse "x\n" = .ok [.literal "x\n"] := by cbv
  have name : Printable (.variable "z") := .name (by decide) (by decide) (by decide)
  have z : StandsFor "z".toList (.expression (.variable "z")) :=
    ⟨_, name.parse_text, .expression (by simp) (by simp) (by simp)⟩
  have yz : parse "y\x7bz\x7d" = .ok [.literal "y", .expression (.variable "z")] := by
    have cut : tokens (fun _ _ => false) "y\x7bz\x7d" = [.char 'y', .substitution 1 "z".toList] := by cbv
    have expression : Tidy [.expression (.variable "z")] :=
      tidy_nil.cons (.expression (by simp) (by simp) (by simp)) (by simp)
    exact parseWith_of_reads cut (.cons (.char _) (.cons (.substitution 1 z) .nil))
      (expression.cons_literal (by simp [NoLiteralFirst]) (by decide))
  have fenced : parseMarkdown "```\n\x7b\n```\n" = .ok [.literal "```\n\x7b\n```\n"] := by cbv
  refine ⟨line, ?_, ?_, ?_⟩
  · exact (((templates_concatenate "x\n" "y\x7bz\x7d" line).1 _ x).1 _ yz).1
  · exact ((templates_concatenate "x\n" "\x7b" line).1 _ x).2 (.openBrace 1) (by cbv)
  · exact (((templates_concatenate _ "\x7d\x7d" block).2.1 (by cbv) _ fenced).1 [.literal "\x7d"] (by cbv)).1

end Template

end Folio
