import Folio.Proofs.Template.Nesting

/-!
# Trees told by their pieces

Well-nested pieces have only one end for each loop, and a tidy tree can be told by its pieces.
So a text is read as the tidy tree that has the pieces of the text, and as no other.

Main statement: `parseWith_eq_ok_iff_cut`.
-/

namespace Folio.Template

/-! ## The end of a loop -/

/-- What stands before the end of a loop can be told from what follows the end. -/
theorem WellNested.eq_of_closes {inside other rest rest' : List Mark} (nested : WellNested inside)
    (nested' : WellNested other) (same : inside ++ .closes :: rest = other ++ .closes :: rest') :
    inside = other ∧ rest = rest' := by
  induction nested generalizing other rest rest' with
  | nil =>
    cases nested' with
    | nil => exact ⟨rfl, (List.cons.inj same).2⟩
    | char | expression | loop => cases same
  | char c more ih =>
    cases nested' with
    | nil | expression | loop => cases same
    | char d more' =>
      obtain ⟨first, same⟩ := List.cons.inj same
      obtain ⟨rfl, rest⟩ := ih more' same
      exact ⟨by rw [first], rest⟩
  | expression e more ih =>
    cases nested' with
    | nil | char | loop => cases same
    | expression f more' =>
      obtain ⟨first, same⟩ := List.cons.inj same
      obtain ⟨rfl, rest⟩ := ih more' same
      exact ⟨by rw [first], rest⟩
  | loop args body more bodyIH ih =>
    cases nested' with
    | nil | char | expression => cases same
    | loop args' body' more' =>
      -- First the bodies of the two loops are the same, then what follows them.
      obtain ⟨first, same⟩ := List.cons.inj same
      obtain ⟨rfl, same⟩ := bodyIH body' (by simpa using same)
      obtain ⟨rfl, rest⟩ := ih more' (by simpa using same)
      exact ⟨by rw [first], rest⟩

/-- What follows well-nested pieces is well nested by itself if the whole is. -/
theorem WellNested.of_append {front back : List Mark} (nested : WellNested front)
    (whole : WellNested (front ++ back)) : WellNested back := by
  induction nested with
  | nil => exact whole
  | char c more ih =>
    cases whole with
    | char _ whole => exact ih whole
  | expression e more ih =>
    cases whole with
    | expression _ whole => exact ih whole
  | @loop inside marks args body more _ ih =>
    rw [List.cons_append, List.append_assoc, List.cons_append] at whole
    generalize spelled : inside ++ .closes :: (marks ++ back) = later at whole
    cases whole with
    | loop _ body' whole =>
      -- The loop ends in the whole where it ends in the front.
      obtain ⟨-, rfl⟩ := body.eq_of_closes body' spelled
      exact ih whole

/-! ## Tidy trees -/

def NoCharFirst (marks : List Mark) : Prop :=
  ∀ c, marks.head? ≠ some (.char c)

theorem textMarks_inj {s s' : List Char} {marks marks' : List Mark} (ends : NoCharFirst marks)
    (ends' : NoCharFirst marks') (same : textMarks s ++ marks = textMarks s' ++ marks') : s = s' ∧ marks = marks' := by
  induction s generalizing s' with
  | nil =>
    cases s' with
    | nil => exact ⟨rfl, same⟩
    | cons c s' => exact absurd (congrArg List.head? same) (ends c)
  | cons c s ih =>
    cases s' with
    | nil => exact absurd (congrArg List.head? same.symm) (ends' c)
    | cons d s' =>
      obtain ⟨first, same⟩ := List.cons.inj same
      obtain ⟨rfl, rest⟩ := ih same
      exact ⟨by rw [Mark.char.inj first], rest⟩

/-- A node that holds something has a first piece, which is a character just in a literal. -/
theorem TidyNode.exists_cons {node : Node} (tidy : TidyNode node) :
    ∃ m more, nodeMarks node = m :: more ∧ ((∃ c, m = .char c) ↔ ∃ text, node = .literal text) := by
  cases tidy with
  | @literal text present =>
    obtain ⟨c, s, spelled⟩ := List.exists_cons_of_ne_nil (mt String.toList_eq_nil_iff.1 present)
    exact ⟨.char c, textMarks s, by rw [nodeMarks, spelled]; rfl, by simp⟩
  | expression => exact ⟨_, [], rfl, by simp⟩
  | loop => exact ⟨_, _, rfl, by simp⟩

/-- Nodes with the same first piece are both literals or both none. -/
theorem TidyNode.literal_iff {node other : Node} (tidy : TidyNode node) (tidy' : TidyNode other)
    {marks marks' : List Mark} (same : nodeMarks node ++ marks = nodeMarks other ++ marks') :
    (∃ text, node = .literal text) ↔ ∃ text, other = .literal text := by
  obtain ⟨m, more, first, literal⟩ := tidy.exists_cons
  obtain ⟨m', more', first', literal'⟩ := tidy'.exists_cons
  rw [first, first'] at same
  rw [← literal, ← literal', (List.cons.inj same).1]

theorem tidy_nil : Tidy [] :=
  ⟨by simp, .nil⟩

theorem Tidy.head {node : Node} {nodes : List Node} (tidy : Tidy (node :: nodes)) : TidyNode node :=
  tidy.each node List.mem_cons_self

theorem Tidy.tail {node : Node} {nodes : List Node} (tidy : Tidy (node :: nodes)) : Tidy nodes where
  each other mem := tidy.each other (List.mem_cons_of_mem _ mem)
  apart := tidy.apart.tail

theorem Tidy.noCharFirst {nodes : List Node} (tidy : Tidy nodes) (apart : NoLiteralFirst nodes) :
    NoCharFirst (nodesMarks nodes) := by
  intro c first
  cases nodes with
  | nil => cases first
  | cons node nodes =>
    obtain ⟨m, more, marks, literal⟩ := tidy.head.exists_cons
    rw [nodesMarks, marks] at first
    obtain ⟨text, rfl⟩ := literal.1 ⟨c, Option.some_inj.1 first⟩
    exact apart text rfl

theorem Tidy.noLiteral_tail {text : String} {nodes : List Node} (tidy : Tidy (.literal text :: nodes)) :
    NoLiteralFirst nodes := by
  intro other first
  exact (List.isChain_cons.1 tidy.apart).1 _ first

theorem Tidy.eq_nil {nodes : List Node} (tidy : Tidy nodes) (none : nodesMarks nodes = []) : nodes = [] := by
  cases nodes with
  | nil => rfl
  | cons node nodes =>
    obtain ⟨m, more, marks, -⟩ := tidy.head.exists_cons
    rw [nodesMarks, marks] at none
    cases none

theorem Tidy.body {args : List Expr} {body nodes : List Node} (tidy : Tidy (.loop args body :: nodes)) : Tidy body := by
  cases tidy.head with
  | loop present each apart => exact ⟨each, apart⟩

mutual

theorem eq_of_nodeMarks : ∀ (node other : Node) (nodes others : List Node), Tidy (node :: nodes) →
    Tidy (other :: others) → nodeMarks node ++ nodesMarks nodes = nodeMarks other ++ nodesMarks others →
      node = other ∧ nodesMarks nodes = nodesMarks others
  | .literal text, other, nodes, others, tidy, tidy', same => by
    obtain ⟨text', rfl⟩ := (tidy.head.literal_iff tidy'.head same).1 ⟨text, rfl⟩
    -- A literal ends where the next node begins, because that is no literal.
    obtain ⟨spelled, rest⟩ := textMarks_inj (tidy.tail.noCharFirst tidy.noLiteral_tail)
      (tidy'.tail.noCharFirst tidy'.noLiteral_tail) same
    exact ⟨by rw [String.toList_inj.1 spelled], rest⟩
  | .expression e, other, nodes, others, tidy, tidy', same => by
    have literal := tidy.head.literal_iff tidy'.head same
    cases other with
    | literal text => simp at literal
    | loop => cases same
    | expression e' =>
      obtain ⟨first, rest⟩ := List.cons.inj same
      exact ⟨by rw [Mark.expression.inj first], rest⟩
  | .loop args body, other, nodes, others, tidy, tidy', same => by
    have literal := tidy.head.literal_iff tidy'.head same
    cases other with
    | literal text => simp at literal
    | expression e => cases same
    | loop args' body' =>
      obtain ⟨first, same⟩ := List.cons.inj same
      obtain ⟨inside, same⟩ := (wellNested_nodes body).eq_of_closes (wellNested_nodes body') (by simpa using same)
      rw [eq_of_nodesMarks body body' tidy.body tidy'.body inside, Mark.opens.inj first]
      exact ⟨rfl, same⟩
termination_by structural node => node

/-- A tidy tree can be told by its pieces. -/
theorem eq_of_nodesMarks : ∀ (nodes others : List Node), Tidy nodes → Tidy others →
    nodesMarks nodes = nodesMarks others → nodes = others
  | [], others, _, tidy', same => (tidy'.eq_nil same.symm).symm
  | node :: nodes, [], tidy, _, same => tidy.eq_nil same
  | node :: nodes, other :: others, tidy, tidy', same => by
    obtain ⟨rfl, rest⟩ := eq_of_nodeMarks node other nodes others tidy tidy' same
    rw [eq_of_nodesMarks nodes others tidy.tail tidy'.tail rest]
termination_by structural nodes => nodes

end

/-! ## Texts and their trees -/

/-- A text is read as a tree just if the tree is tidy and has the pieces of the text. -/
theorem parseWith_eq_ok_iff_cut {isCode : ℕ → ℕ → Bool} {text : String} {t : Template} :
    parseWith isCode text = .ok t ↔ Cut isCode text (nodesMarks t) ∧ Tidy t := by
  constructor
  · intro parsed
    obtain ⟨marks, cut⟩ := exists_cut_of_parseWith parsed
    obtain ⟨rfl, tidy⟩ := marks_of_parseWith cut parsed
    exact ⟨cut, tidy⟩
  · rintro ⟨cut, tidy⟩
    obtain ⟨u, parsed⟩ := exists_parseWith_of_cut cut (wellNested_nodes t)
    obtain ⟨same, tidy'⟩ := marks_of_parseWith cut parsed
    rw [parsed, eq_of_nodesMarks u t tidy' tidy same]

theorem parseWith_of_reads {isCode : ℕ → ℕ → Bool} {text : String} {tokens : List Token} {t : Template}
    (cut : Template.tokens isCode text = tokens) (reads : List.Forall₂ Token.Reads tokens (nodesMarks t)) (tidy : Tidy t) :
    parseWith isCode text = .ok t :=
  parseWith_eq_ok_iff_cut.2 ⟨cut_iff.2 (cut ▸ reads), tidy⟩

end Folio.Template
