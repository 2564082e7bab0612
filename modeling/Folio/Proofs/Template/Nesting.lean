import Folio.Proofs.Template.Cut
import Folio.Proofs.Template.RoundTrip

/-!
# Trees and their pieces

The pieces of a tree from left to right are the pieces into which its text was cut, so
nothing is lost, doubled or moved; and a text becomes a tree exactly if its loops are well
nested.  A builder holds the pieces read so far in its open loops, its nodes and its pending
characters, in this order; each token adds its piece at the end.

Main statement: `parseWith_marks`.
-/

namespace Folio.Template

/-! ## Well-nested pieces -/

/-- Every loop that is opened is closed, one inside the other, and no loop lacks a source. -/
inductive WellNested : List Mark → Prop where
  | nil : WellNested []
  | char {marks : List Mark} (c : Char) (rest : WellNested marks) : WellNested (.char c :: marks)
  | expression {marks : List Mark} (e : Expr) (rest : WellNested marks) : WellNested (.expression e :: marks)
  | loop {inside marks : List Mark} (args : List Expr) (body : WellNested inside) (rest : WellNested marks) :
      WellNested (.opens args :: (inside ++ .closes :: marks))

def textMarks (s : List Char) : List Mark :=
  s.map .char

mutual

/-- The pieces of a node, from left to right. -/
def nodeMarks : Node → List Mark
  | .literal text => textMarks text.toList
  | .expression e => [.expression e]
  | .loop args body => .opens args :: (nodesMarks body ++ [.closes])
termination_by structural node => node

/-- The pieces of the nodes one after the other. -/
def nodesMarks : List Node → List Mark
  | [] => []
  | node :: nodes => nodeMarks node ++ nodesMarks nodes
termination_by structural nodes => nodes

end

theorem nodesMarks_append (nodes others : List Node) :
    nodesMarks (nodes ++ others) = nodesMarks nodes ++ nodesMarks others := by
  induction nodes with
  | nil => rfl
  | cons node nodes ih => simp only [List.cons_append, nodesMarks, ih, List.append_assoc]

theorem nodesMarks_singleton (node : Node) : nodesMarks [node] = nodeMarks node := by
  simp [nodesMarks]

theorem WellNested.append {marks others : List Mark} (first : WellNested marks) (second : WellNested others) :
    WellNested (marks ++ others) := by
  induction first with
  | nil => exact second
  | char c rest ih => exact .char c ih
  | expression e rest ih => exact .expression e ih
  | loop args body rest _ ih =>
    rw [List.cons_append, List.append_assoc, List.cons_append]
    exact .loop args body ih

theorem wellNested_text (s : List Char) : WellNested (textMarks s) := by
  induction s with
  | nil => exact .nil
  | cons c s ih => exact .char c ih

mutual

/-- The pieces of a tree are well nested. -/
theorem wellNested_node : ∀ node : Node, WellNested (nodeMarks node)
  | .literal text => wellNested_text text.toList
  | .expression e => .expression e .nil
  | .loop args body => .loop args (wellNested_nodes body) .nil
termination_by structural node => node

theorem wellNested_nodes : ∀ nodes : List Node, WellNested (nodesMarks nodes)
  | [] => .nil
  | node :: nodes => (wellNested_node node).append (wellNested_nodes nodes)
termination_by structural nodes => nodes

end

/-! ## Tidy trees -/

/-- At most one of two neighbours is a literal. -/
def Apart : Node → Node → Prop
  | .literal _, .literal _ => False
  | _, _ => True

/-- A node that holds something, and whose parts do so: a literal is not empty, an expression
is no tag of a block, and a loop has a source. -/
inductive TidyNode : Node → Prop where
  | literal {text : String} (present : text ≠ "") : TidyNode (.literal text)
  | expression {e : Expr} (noBareLoop : e ≠ .variable "foreach") (noEnd : e ≠ .variable "end")
      (noLoop : ∀ args, e ≠ .apply (.variable "foreach") args) : TidyNode (.expression e)
  | loop {args : List Expr} {body : List Node} (present : args ≠ []) (each : ∀ node ∈ body, TidyNode node)
      (apart : body.IsChain Apart) : TidyNode (.loop args body)

/-- Tidy nodes, of which no two neighbours are literals. -/
structure Tidy (nodes : List Node) : Prop where
  each : ∀ node ∈ nodes, TidyNode node
  apart : nodes.IsChain Apart

theorem Apart.symm {a b : Node} (apart : Apart a b) : Apart b a := by
  cases a <;> cases b <;> trivial

theorem Tidy.reverse {nodes : List Node} (tidy : Tidy nodes) : Tidy nodes.reverse where
  each node mem := tidy.each node (List.mem_reverse.1 mem)
  apart := by
    rw [List.isChain_reverse]
    exact tidy.apart.imp fun _ _ => Apart.symm

def NoLiteralFirst (nodes : List Node) : Prop :=
  ∀ text, nodes.head? ≠ some (.literal text)

theorem Tidy.cons_literal {nodes : List Node} (tidy : Tidy nodes) (apart : NoLiteralFirst nodes) {text : String}
    (present : text ≠ "") : Tidy (.literal text :: nodes) where
  each := List.forall_mem_cons.2 ⟨.literal present, tidy.each⟩
  apart := by
    refine List.isChain_cons.2 ⟨fun node first => ?_, tidy.apart⟩
    cases node with
    | literal other => exact absurd first (apart other)
    | expression | loop => trivial

theorem Tidy.cons {node : Node} {nodes : List Node} (tidy : Tidy nodes) (shape : TidyNode node)
    (other : ∀ text, node ≠ .literal text) : Tidy (node :: nodes) where
  each := List.forall_mem_cons.2 ⟨shape, tidy.each⟩
  apart := by
    refine List.isChain_cons.2 ⟨fun next _ => ?_, tidy.apart⟩
    cases node with
    | literal text => exact absurd rfl (other text)
    | expression | loop => cases next <;> trivial

/-! ## What a builder has read -/

/-- The pieces before the innermost open loop, its beginning included. -/
def openMarks : List OpenLoop → List Mark
  | [] => []
  | loop :: around => openMarks around ++ (nodesMarks loop.before.reverse ++ [.opens loop.args])

def Builder.marks (b : Builder) : List Mark :=
  openMarks b.opened ++ (nodesMarks b.nodes.reverse ++ textMarks b.pending.reverse)

/-- What is in the builder is tidy, and so it stays if the pending characters become a literal. -/
structure Builder.Tidy (b : Builder) : Prop where
  nodes : Template.Tidy b.nodes
  noLiteral : NoLiteralFirst b.nodes
  around : ∀ loop ∈ b.opened, loop.args ≠ [] ∧ Template.Tidy loop.before

theorem Builder.marks_flushed (b : Builder) :
    nodesMarks b.flushed.reverse = nodesMarks b.nodes.reverse ++ textMarks b.pending.reverse := by
  rw [Builder.flushed]
  split_ifs with empty
  · rw [List.isEmpty_iff.1 empty]
    simp [textMarks]
  · rw [List.reverse_cons, nodesMarks_append, nodesMarks_singleton, nodeMarks, String.toList_ofList]

theorem Builder.Tidy.flushed {b : Builder} (tidy : b.Tidy) : Template.Tidy b.flushed := by
  rw [Builder.flushed]
  split_ifs with empty
  · exact tidy.nodes
  · have present : String.ofList b.pending.reverse ≠ "" := by
      simpa [String.ext_iff] using empty
    exact tidy.nodes.cons_literal tidy.noLiteral present

variable {b after : Builder} {token : Token} {tokens : List Token} {m : Mark}

/-- The arguments of a loop come from an application, which has some. -/
theorem StandsFor.args_ne_nil {inner : List Char} {args : List Expr} (stands : StandsFor inner (.opens args)) :
    args ≠ [] := by
  obtain ⟨e, read, means⟩ := stands
  cases means with
  | opens =>
    cases parsed_of_parse read with
    | leaf leaf => cases leaf
    | apply head present parts => exact present

/-- The builder takes in what a substitution stands for, as far as it has a place for it. -/
theorem step_substitution {line : ℕ} {inner : List Char} {e : Expr}
    (read : Expr.parse .list (String.ofList (expressionText inner)) = .ok e) :
    b.step (.substitution line inner) = b.add line e := by
  rw [Builder.step, read]

/-- What one token does to a builder. -/
inductive Takes (b : Builder) : Mark → Builder → Prop where
  | char (c : Char) : Takes b (.char c) { b with pending := c :: b.pending }
  | expression {e : Expr} (noBareLoop : e ≠ .variable "foreach") (noEnd : e ≠ .variable "end")
      (noLoop : ∀ args, e ≠ .apply (.variable "foreach") args) :
      Takes b (.expression e) ⟨.expression e :: b.flushed, [], b.opened⟩
  | opens {args : List Expr} (present : args ≠ []) : Takes b (.opens args) ⟨[], [], ⟨args, b.flushed⟩ :: b.opened⟩
  | closes {args : List Expr} {before : List Node} {around : List OpenLoop} (opened : b.opened = ⟨args, before⟩ :: around) :
      Takes b .closes ⟨.loop args b.flushed.reverse :: before, [], around⟩

theorem add_end_none (closed : b.opened = []) (line : ℕ) :
    b.add line (.variable "end") = .error (.endWithoutLoop line) := by
  have tag : Tag.ofExpr (.variable "end") = .closeLoop := rfl
  rw [Builder.add, tag]
  dsimp only
  rw [closed]

/-- A token that reads as a mark is taken in as the mark, or not at all. -/
theorem step_eq_ok_iff (reads : token.Reads m) : b.step token = .ok after ↔ Takes b m after := by
  cases reads with
  | char c =>
    constructor
    · intro taken
      cases taken
      exact .char c
    · intro takes
      cases takes
      rfl
  | substitution line stands =>
    obtain ⟨e, read, means⟩ := id stands
    rw [step_substitution read]
    -- Both ways by what the expression means; of the four only `end` looks at the open loops.
    constructor
    · intro taken
      cases means with
      | opens args =>
        rw [add_loop] at taken
        cases taken
        exact .opens stands.args_ne_nil
      | bareLoop => contradiction
      | closes =>
        cases opened : b.opened with
        | nil =>
          rw [add_end_none opened] at taken
          contradiction
        | cons loop around =>
          rw [add_end opened] at taken
          cases taken
          exact .closes opened
      | expression noBareLoop noEnd noLoop =>
        rw [add_expression noBareLoop noEnd noLoop] at taken
        cases taken
        exact .expression noBareLoop noEnd noLoop
    · intro takes
      cases takes with
      | char c => cases means
      | expression noBareLoop noEnd noLoop =>
        cases means
        exact add_expression noBareLoop noEnd noLoop b line
      | opens present =>
        cases means
        exact add_loop b line _
      | closes opened =>
        cases means
        exact add_end opened line

/-- Each token adds its mark at the end. -/
theorem Takes.marks_eq (takes : Takes b m after) : after.marks = b.marks ++ [m] := by
  cases takes with
  | char c => simp [Builder.marks, textMarks]
  | expression noBareLoop noEnd noLoop =>
    simp only [Builder.marks, List.reverse_cons, nodesMarks_append, nodesMarks_singleton, nodeMarks, b.marks_flushed]
    simp [textMarks]
  | opens present =>
    simp only [Builder.marks, openMarks, b.marks_flushed]
    simp [textMarks, nodesMarks]
  | closes opened =>
    -- The pieces that opened the loop already stand last before those of its body.
    simp only [Builder.marks, opened, openMarks, List.reverse_cons, nodesMarks_append, nodesMarks_singleton, nodeMarks,
      b.marks_flushed]
    simp [textMarks]

theorem Takes.tidy (takes : Takes b m after) (tidy : b.Tidy) : after.Tidy := by
  cases takes with
  | char c => exact ⟨tidy.nodes, tidy.noLiteral, tidy.around⟩
  | expression noBareLoop noEnd noLoop =>
    exact ⟨tidy.flushed.cons (.expression noBareLoop noEnd noLoop) (by simp), by simp [NoLiteralFirst], tidy.around⟩
  | opens present =>
    have none : Template.Tidy [] := ⟨by simp, .nil⟩
    exact ⟨none, by simp [NoLiteralFirst], List.forall_mem_cons.2 ⟨⟨present, tidy.flushed⟩, tidy.around⟩⟩
  | closes opened =>
    have around := tidy.around
    rw [opened] at around
    obtain ⟨⟨present, before⟩, around⟩ := List.forall_mem_cons.1 around
    have body := tidy.flushed.reverse
    exact ⟨before.cons (.loop present body.each body.apart) (by simp), by simp [NoLiteralFirst], around⟩

/-! ## Runs -/

theorem run_cons : b.run (token :: tokens) = .ok after ↔ ∃ middle, b.step token = .ok middle ∧ middle.run tokens = .ok after := by
  rw [Builder.run]
  cases b.step token <;> simp

/-- What a run has read is what its tokens are read as, one after the other. -/
theorem run_marks {marks : List Mark} (taken : b.run tokens = .ok after)
    (reads : List.Forall₂ Token.Reads tokens marks) (tidy : b.Tidy) : after.marks = b.marks ++ marks ∧ after.Tidy := by
  induction reads generalizing b with
  | nil =>
    cases taken
    simpa using tidy
  | cons first reads ih =>
    obtain ⟨middle, step, taken⟩ := run_cons.1 taken
    have takes := (step_eq_ok_iff first).1 step
    obtain ⟨same, tidy⟩ := ih taken (takes.tidy tidy)
    refine ⟨?_, tidy⟩
    rw [same, takes.marks_eq, List.append_assoc, List.singleton_append]

theorem exists_means (e : Expr) : ∃ m, Means e m := by
  by_cases bareLoop : e = .variable "foreach"
  · exact ⟨.bareLoop, bareLoop ▸ .bareLoop⟩
  · by_cases isEnd : e = .variable "end"
    · exact ⟨.closes, isEnd ▸ .closes⟩
    · by_cases loop : ∃ args, e = .apply (.variable "foreach") args
      · obtain ⟨args, rfl⟩ := loop
        exact ⟨.opens args, .opens args⟩
      · exact ⟨.expression e, .expression bareLoop isEnd fun args same => loop ⟨args, same⟩⟩

/-- What is taken in is read as something. -/
theorem exists_reads_of_step (taken : b.step token = .ok after) : ∃ m, token.Reads m := by
  cases token with
  | char c => exact ⟨.char c, .char c⟩
  | openBrace line => contradiction
  | substitution line inner =>
    cases read : Expr.parse .list (String.ofList (expressionText inner)) with
    | error fault =>
      rw [Builder.step, read] at taken
      contradiction
    | ok e =>
      obtain ⟨m, means⟩ := exists_means e
      exact ⟨m, .substitution line ⟨e, read, means⟩⟩

theorem exists_reads_of_run (taken : b.run tokens = .ok after) : ∃ marks, List.Forall₂ Token.Reads tokens marks := by
  induction tokens generalizing b with
  | nil => exact ⟨[], .nil⟩
  | cons token tokens ih =>
    obtain ⟨middle, step, taken⟩ := run_cons.1 taken
    obtain ⟨m, first⟩ := exists_reads_of_step step
    obtain ⟨marks, reads⟩ := ih taken
    exact ⟨m :: marks, .cons first reads⟩

theorem run_append {others : List Token} {middle : Builder} (first : b.run tokens = .ok middle)
    (second : middle.run others = .ok after) : b.run (tokens ++ others) = .ok after := by
  induction tokens generalizing b with
  | nil =>
    cases first
    exact second
  | cons token tokens ih =>
    obtain ⟨next, step, first⟩ := run_cons.1 first
    exact run_cons.2 ⟨next, step, ih first⟩

/-- A token is taken in unless it closes a loop where none is open, or is a loop without source. -/
theorem Token.Reads.exists_step (reads : token.Reads m) (source : m ≠ .bareLoop)
    (place : m = .closes → b.opened ≠ []) : ∃ after, b.step token = .ok after ∧ Takes b m after := by
  have takes : ∃ after, Takes b m after := by
    cases reads with
    | char c => exact ⟨_, .char c⟩
    | substitution line stands =>
      obtain ⟨e, read, means⟩ := id stands
      cases means with
      | opens args => exact ⟨_, .opens stands.args_ne_nil⟩
      | bareLoop => contradiction
      | closes =>
        obtain ⟨loop, around, opened⟩ := List.exists_cons_of_ne_nil (place rfl)
        exact ⟨_, .closes opened⟩
      | expression noBareLoop noEnd noLoop => exact ⟨_, .expression noBareLoop noEnd noLoop⟩
  obtain ⟨after, takes⟩ := takes
  exact ⟨after, (step_eq_ok_iff reads).2 takes, takes⟩

/-- Well-nested pieces are taken in, and in the end the same loops are open as before. -/
theorem run_of_wellNested {marks : List Mark} (nested : WellNested marks) :
    ∀ (b : Builder) (tokens : List Token), List.Forall₂ Token.Reads tokens marks →
      ∃ after, b.run tokens = .ok after ∧ after.opened = b.opened := by
  induction nested with
  | nil =>
    intro b tokens reads
    cases reads
    exact ⟨b, rfl, rfl⟩
  | char c rest ih =>
    intro b tokens reads
    obtain - | ⟨first, reads⟩ := reads
    obtain ⟨middle, step, takes⟩ := first.exists_step (b := b) (by simp) (by simp)
    obtain ⟨after, taken, same⟩ := ih middle _ reads
    cases takes
    exact ⟨after, run_cons.2 ⟨_, step, taken⟩, same⟩
  | expression e rest ih =>
    intro b tokens reads
    obtain - | ⟨first, reads⟩ := reads
    obtain ⟨middle, step, takes⟩ := first.exists_step (b := b) (by simp) (by simp)
    obtain ⟨after, taken, same⟩ := ih middle _ reads
    cases takes
    exact ⟨after, run_cons.2 ⟨_, step, taken⟩, same⟩
  | @loop inside marks args body rest bodyTaken ih =>
    intro b tokens reads
    obtain - | ⟨first, reads⟩ := reads
    rename_i token tokens
    obtain ⟨opening, step, takes⟩ := first.exists_step (b := b) (by simp) (by simp)
    obtain - | - | present := takes
    have inner := List.forall₂_take_append tokens inside _ reads
    have outer := List.forall₂_drop_append tokens inside _ reads
    obtain ⟨middle, bodyRun, opened⟩ := bodyTaken ⟨[], [], ⟨args, b.flushed⟩ :: b.opened⟩ _ inner
    -- The loop that was opened before the body is the one that is closed after it.
    cases split : tokens.drop inside.length with
    | nil =>
      rw [split] at outer
      contradiction
    | cons last others =>
      rw [split] at outer
      obtain - | ⟨closing, later⟩ := outer
      obtain ⟨closed, lastStep, takes⟩ := closing.exists_step (b := middle) (by simp) (by simp [opened])
      obtain - | - | - | opened' := takes
      rw [opened] at opened'
      cases opened'
      obtain ⟨after, restRun, same⟩ :=
        ih ⟨.loop args middle.flushed.reverse :: b.flushed, [], b.opened⟩ others later
      refine ⟨after, run_cons.2 ⟨_, step, ?_⟩, same⟩
      rw [← List.take_append_drop inside.length tokens, split]
      exact run_append bodyRun (run_cons.2 ⟨_, lastStep, restRun⟩)

/-! ## Whole texts -/

def Cut (isCode : ℕ → ℕ → Bool) (text : String) (marks : List Mark) : Prop :=
  TextCut isCode 0 text.toList marks

theorem cut_iff {isCode : ℕ → ℕ → Bool} {text : String} {marks : List Mark} :
    Cut isCode text marks ↔ List.Forall₂ Token.Reads (Template.tokens isCode text) marks :=
  textCut_iff

theorem parseWith_eq_ok_iff {isCode : ℕ → ℕ → Bool} {text : String} {t : Template} :
    parseWith isCode text = .ok t ↔
      ∃ after, Builder.start.run (Template.tokens isCode text) = .ok after ∧ after.opened = [] ∧ t = after.flushed.reverse := by
  rw [parseWith]
  cases Builder.start.run (Template.tokens isCode text) with
  | error fault => simp
  | ok after =>
    cases opened : after.opened with
    | nil => simp [Builder.finish, opened, eq_comm]
    | cons loop around => simp [Builder.finish, opened]

theorem tidy_start : Builder.start.Tidy :=
  ⟨⟨by simp [Builder.start], .nil⟩, by simp [NoLiteralFirst, Builder.start], by simp [Builder.start]⟩

/-- The tree of a text is tidy, and its pieces are those of the text. -/
theorem marks_of_parseWith {isCode : ℕ → ℕ → Bool} {text : String} {t : Template} {marks : List Mark}
    (cut : Cut isCode text marks) (parsed : parseWith isCode text = .ok t) : nodesMarks t = marks ∧ Tidy t := by
  obtain ⟨after, taken, closed, rfl⟩ := parseWith_eq_ok_iff.1 parsed
  obtain ⟨same, tidy⟩ := run_marks taken (cut_iff.1 cut) tidy_start
  refine ⟨?_, tidy.flushed.reverse⟩
  -- No loop is open at the end, so the nodes and the pending characters are all that was read.
  rw [after.marks_flushed]
  simpa [Builder.marks, closed, Builder.start, openMarks, nodesMarks, textMarks] using same

/-- An accepted text is cut into pieces. -/
theorem exists_cut_of_parseWith {isCode : ℕ → ℕ → Bool} {text : String} {t : Template}
    (parsed : parseWith isCode text = .ok t) : ∃ marks, Cut isCode text marks := by
  obtain ⟨after, taken, -, -⟩ := parseWith_eq_ok_iff.1 parsed
  obtain ⟨marks, reads⟩ := exists_reads_of_run taken
  exact ⟨marks, cut_iff.2 reads⟩

/-- A text of well-nested pieces is accepted. -/
theorem exists_parseWith_of_cut {isCode : ℕ → ℕ → Bool} {text : String} {marks : List Mark}
    (cut : Cut isCode text marks) (nested : WellNested marks) : ∃ t, parseWith isCode text = .ok t := by
  obtain ⟨after, taken, closed⟩ := run_of_wellNested nested .start _ (cut_iff.1 cut)
  exact ⟨_, parseWith_eq_ok_iff.2 ⟨after, taken, closed, rfl⟩⟩

/-- Where every brace that opens a tag is closed on its line, and every tag is read, a text is a
template exactly if its loops are well nested, and the tree has the pieces of the text in
their order.  Only such texts are templates, and their trees are tidy. -/
theorem parseWith_marks (isCode : ℕ → ℕ → Bool) (text : String) :
    (∀ marks, Cut isCode text marks →
      ((∃ t, parseWith isCode text = .ok t) ↔ WellNested marks) ∧
        ∀ t, parseWith isCode text = .ok t → nodesMarks t = marks) ∧
      ∀ t, parseWith isCode text = .ok t → (∃ marks, Cut isCode text marks) ∧ Tidy t := by
  refine ⟨fun marks cut => ⟨⟨?_, exists_parseWith_of_cut cut⟩, fun t parsed => (marks_of_parseWith cut parsed).1⟩,
    fun t parsed => ?_⟩
  · rintro ⟨t, parsed⟩
    rw [← (marks_of_parseWith cut parsed).1]
    exact wellNested_nodes t
  · obtain ⟨marks, cut⟩ := exists_cut_of_parseWith parsed
    exact ⟨⟨marks, cut⟩, (marks_of_parseWith cut parsed).2⟩

/-- A brace in code, a doubled one and a loop over two lines; and a loop that ends before it
begins. -/
theorem parseWith_marks_loop :
    let isCode := fun line column => line == 0 && column == 0
    (∃ t, parseWith isCode "\x7b\x7d\x7d\x7b(foreach x)\x7d\n\x7bx\x7d\x7b/\x7d" = .ok t ∧ Tidy t ∧
      nodesMarks t =
        [.char '\x7b', .char '\x7d', .opens [.variable "x"], .char '\n', .expression (.variable "x"), .closes]) ∧
      ¬∃ t, parseWith isCode " \x7bend\x7d\x7b(foreach x)\x7d" = .ok t := by
  intro isCode
  have x : Printable (.variable "x") := .name (by decide) (by decide) (by decide)
  have source : Printable (.apply (.variable "foreach") [.variable "x"]) :=
    .apply (.name (by decide) (by decide) (by decide)) (by simp) (by simpa using x)
  have opens : StandsFor "(foreach x)".toList (.opens [.variable "x"]) := ⟨_, source.parse_text, .opens _⟩
  have names : StandsFor "x".toList (.expression (.variable "x")) :=
    ⟨_, x.parse_text, .expression (by simp) (by simp) (by simp)⟩
  have closes : StandsFor "end".toList .closes := ⟨_, printable_end.parse_text, .closes⟩
  have slash : StandsFor "/".toList .closes := ⟨_, printable_end.parse_text, .closes⟩
  have cut : Cut isCode "\x7b\x7d\x7d\x7b(foreach x)\x7d\n\x7bx\x7d\x7b/\x7d"
      [.char '\x7b', .char '\x7d', .opens [.variable "x"], .char '\n', .expression (.variable "x"), .closes] := by
    have tokens : tokens isCode "\x7b\x7d\x7d\x7b(foreach x)\x7d\n\x7bx\x7d\x7b/\x7d" =
        [.char '\x7b', .char '\x7d', .substitution 1 "(foreach x)".toList, .char '\n', .substitution 2 "x".toList,
          .substitution 2 "/".toList] := by cbv
    rw [cut_iff, tokens]
    exact .cons (.char _) (.cons (.char _) (.cons (.substitution 1 opens) (.cons (.char _)
      (.cons (.substitution 2 names) (.cons (.substitution 2 slash) .nil)))))
  have endFirst : Cut isCode " \x7bend\x7d\x7b(foreach x)\x7d" [.char ' ', .closes, .opens [.variable "x"]] := by
    have tokens : tokens isCode " \x7bend\x7d\x7b(foreach x)\x7d" =
        [.char ' ', .substitution 1 "end".toList, .substitution 1 "(foreach x)".toList] := by cbv
    rw [cut_iff, tokens]
    exact .cons (.char _) (.cons (.substitution 1 closes) (.cons (.substitution 1 opens) .nil))
  obtain ⟨cuts, trees⟩ := parseWith_marks isCode "\x7b\x7d\x7d\x7b(foreach x)\x7d\n\x7bx\x7d\x7b/\x7d"
  obtain ⟨accepted, same⟩ := cuts _ cut
  obtain ⟨t, parsed⟩ := accepted.2 (.char _ (.char _ (.loop _ (.char _ (.expression _ .nil)) .nil)))
  refine ⟨⟨t, parsed, (trees t parsed).2, same t parsed⟩, fun parsed => ?_⟩
  have balanced := (((parseWith_marks isCode " \x7bend\x7d\x7b(foreach x)\x7d").1 _ endFirst).1).1 parsed
  obtain - | ⟨-, rest⟩ := balanced
  cases rest

end Folio.Template
