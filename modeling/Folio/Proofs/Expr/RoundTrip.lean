import Folio.Proofs.Expr.Leaves

/-!
# Printed expressions read back

The text of an expression that was read, however it was cut into terms the first time, is
read as a list of terms.  If no leaf is lossy, every bracket and every token is read for
what it is, and the expression comes back.  At the first lossy leaf another leaf is read,
and since leaves that have been read stay where they are, nothing after it can mend that.

Main statement: `parse_text_iff`.
-/

namespace Folio

open Text (isBlank trimEndChars trimEndChars_eq_self takeWhile_run)

variable {outer : ExprForm} {terms : List Expr} {opened : List OpenBracket}

/-! ## Steps of a scan -/

theorem scan_idle (outer : ExprForm) (opened : List OpenBracket) {c : Char}
    (idle : (currentForm outer opened).isIdle c = true) (rest : List Char) :
    scan outer terms opened (c :: rest) = scan outer terms opened rest := by
  rw [scan.eq_def]
  dsimp only
  rw [if_pos idle]

theorem isIdle_of_shown {form : ExprForm} {c : Char} (shown : isBlank c = false) (noComma : c ≠ ',') :
    form.isIdle c = false := by
  cases form <;> simp [ExprForm.isIdle, shown, noComma]

theorem isTerminator_of_plain {form : ExprForm} {c : Char} (plain : Plain c) : form.isTerminator c = false := by
  cases form <;> simp [ExprForm.isTerminator, plain.shown, plain.noComma, plain.noBracket]

theorem scan_quote {quote : Char} {rest literal left : List Char} (isQuote : quote = '\'' ∨ quote = '"')
    (found : splitAtQuote quote rest = some (literal, left)) :
    scan outer terms opened (quote :: rest) =
      scan outer (.value (.str (String.ofList literal)) :: terms) opened left := by
  have shown : (currentForm outer opened).isIdle quote = false := by
    apply isIdle_of_shown <;> obtain rfl | rfl := isQuote <;> decide
  have opens : Folio.isQuote quote = true := by obtain rfl | rfl := isQuote <;> rfl
  rw [scan.eq_def]
  dsimp only
  rw [if_neg (by simp [shown]), if_pos opens]
  split
  · rename_i none
    rw [found] at none
    contradiction
  · rename_i some
    rw [found] at some
    cases some
    rfl

def Bracket.opener : Bracket → Char
  | .round => '('
  | .square => '['

theorem scan_open (b : Bracket) (rest : List Char) :
    scan outer terms opened (b.opener :: rest) = scan outer [] (⟨b, terms⟩ :: opened) rest := by
  have shown : (currentForm outer opened).isIdle b.opener = false := by
    apply isIdle_of_shown <;> cases b <;> decide
  have unquoted : isQuote b.opener = false := by cases b <;> rfl
  rw [scan.eq_def]
  dsimp only
  rw [if_neg (by simp [shown]), if_neg (by simp [unquoted])]
  cases b with
  | round => exact if_pos rfl
  | square => exact (if_neg (by decide)).trans (if_pos rfl)

theorem scan_close {b : Bracket} {before : List Expr} {e : Expr} (closed : b.close terms.reverse = .ok e)
    (rest : List Char) :
    scan outer terms (⟨b, before⟩ :: opened) (b.closer :: rest) = scan outer (e :: before) opened rest := by
  have shown : (currentForm outer (⟨b, before⟩ :: opened)).isIdle b.closer = false := by
    apply isIdle_of_shown <;> cases b <;> decide
  have unquoted : isQuote b.closer = false := by cases b <;> rfl
  have closes : b.closer ≠ '(' ∧ b.closer ≠ '[' ∧ (b.closer = ')' ∨ b.closer = ']') := by cases b <;> decide
  rw [scan.eq_def]
  dsimp only
  rw [if_neg (by simp [shown]), if_neg (by simp [unquoted]), if_neg closes.1, if_neg closes.2.1,
    if_pos closes.2.2, if_pos rfl, closed]

def Ends (form : ExprForm) (rest : List Char) : Prop :=
  ∀ c ∈ rest.head?, form.isTerminator c = true

/-- A character with which a bare token begins. -/
structure StartsToken (form : ExprForm) (c : Char) : Prop where
  noIdle : form.isIdle c = false
  noQuote : isQuote c = false
  noBracket : isBracket c = false

theorem scan_token {c : Char} {more rest : List Char} (starts : StartsToken (currentForm outer opened) c)
    (goesOn : ∀ d ∈ more, (currentForm outer opened).continues d = true)
    (ends : Ends (currentForm outer opened) rest) :
    scan outer terms opened (c :: (more ++ rest)) =
      scan outer (classify (trimEndChars (c :: more)) :: terms) opened rest := by
  have brackets : c ≠ '(' ∧ c ≠ '[' ∧ ¬(c = ')' ∨ c = ']') := by
    have other := starts.noBracket
    simp only [isBracket, Bool.or_eq_false_iff, beq_eq_false_iff_ne] at other
    exact ⟨other.1.1.1, other.1.2, by simp [other]⟩
  obtain ⟨token, left⟩ := takeWhile_run (p := (currentForm outer opened).continues) (t := rest) goesOn
    (fun c mem => by simp [ExprForm.continues, ends c mem])
  rw [scan.eq_def]
  dsimp only
  rw [if_neg (by simp [starts.noIdle]), if_neg (by simp [starts.noQuote]), if_neg brackets.1,
    if_neg brackets.2.1, if_neg brackets.2.2]
  simp only [token, left]

theorem scan_bare {s rest : List Char} (bare : Bare s) (ends : Ends (currentForm outer opened) rest) :
    scan outer terms opened (s ++ rest) = scan outer (classify s :: terms) opened rest := by
  obtain ⟨c, more, rfl⟩ := List.exists_cons_of_ne_nil bare.present
  have first := bare.plain c (by simp)
  have starts : StartsToken (currentForm outer opened) c :=
    ⟨isIdle_of_shown first.shown first.noComma, first.noQuote, first.noBracket⟩
  have last : trimEndChars (c :: more) = c :: more :=
    trimEndChars_eq_self fun d mem => (bare.plain d (List.mem_of_mem_getLast? mem)).shown
  have goesOn : ∀ d ∈ more, (currentForm outer opened).continues d = true := by
    intro d mem
    simp [ExprForm.continues, isTerminator_of_plain (bare.plain d (List.mem_cons_of_mem _ mem))]
  rw [List.cons_append, scan_token starts goesOn ends, last]

/-! ## Quoted strings -/

theorem splitAtQuote_append {quote : Char} {s : List Char} (absent : quote ∉ s) (rest : List Char) :
    splitAtQuote quote (s ++ quote :: rest) = some (s, rest) := by
  induction s with
  | nil => simp [splitAtQuote]
  | cons c s ih =>
    simp only [List.mem_cons, not_or] at absent
    rw [List.cons_append, splitAtQuote, if_neg (Ne.symm absent.1), ih absent.2]
    rfl

/-- A quote inside a literal ends it too early. -/
theorem splitAtQuote_mem {quote : Char} {s : List Char} (mem : quote ∈ s) (rest : List Char) :
    ∃ front back, splitAtQuote quote (s ++ rest) = some (front, back) ∧ front.length < s.length := by
  induction s with
  | nil => contradiction
  | cons c s ih =>
    rw [List.cons_append, splitAtQuote]
    by_cases same : c = quote
    · rw [if_pos same]
      exact ⟨[], _, rfl, by simp⟩
    · obtain ⟨front, back, found, short⟩ := ih ((List.mem_cons.1 mem).resolve_left (Ne.symm same))
      rw [if_neg same, found]
      exact ⟨c :: front, back, rfl, by simpa using short⟩

theorem quotedText_toList (s : String) :
    ∃ quote, (quote = '\'' ∨ quote = '"') ∧ (quotedText s).toList = quote :: (s.toList ++ [quote]) ∧
      (quote ∈ s.toList ↔ '\'' ∈ s.toList ∧ '"' ∈ s.toList) := by
  unfold quotedText
  by_cases single : '\'' ∈ s.toList
  · rw [if_pos (by simpa using single)]
    exact ⟨'"', .inr rfl, by simp, by simp [single]⟩
  · rw [if_neg (by simpa using single)]
    exact ⟨'\'', .inl rfl, by simp, by simp [single]⟩

/-! ## Texts of brackets -/

/-- The character between the terms in a bracket. -/
def Bracket.separator : Bracket → Char
  | .round => ' '
  | .square => ','

/-- The texts of the expressions with a character between them. -/
def joinedText (separator : Char) : List Expr → List Char
  | [] => []
  | [e] => e.text.toList
  | e :: f :: es => e.text.toList ++ separator :: joinedText separator (f :: es)

theorem intercalate_toList (separator : Char) (es : List Expr) :
    (String.intercalate (String.singleton separator) (exprTexts es)).toList = joinedText separator es := by
  rw [String.toList_intercalate]
  fun_induction joinedText separator es with
  | case1 => simp [exprTexts]
  | case2 e => simp [exprTexts]
  | case3 e f es ih =>
    rw [← ih]
    simp [exprTexts, List.intercalate]

def Bracket.termsText (b : Bracket) (es : List Expr) : List Char :=
  b.opener :: (joinedText b.separator es ++ [b.closer])

theorem text_array (items : List Expr) : (Expr.array items).text.toList = Bracket.square.termsText items := by
  rw [Bracket.termsText, show Bracket.square.separator = ',' from rfl, ← intercalate_toList]
  simp [Expr.text, Bracket.opener, Bracket.closer]

theorem text_apply (function : Expr) (args : List Expr) :
    (Expr.apply function args).text.toList = Bracket.round.termsText (function :: args) := by
  rw [Bracket.termsText, show Bracket.round.separator = ' ' from rfl, ← intercalate_toList]
  simp [Expr.text, exprTexts, Bracket.opener, Bracket.closer]

/-! ## Reading without loss -/

/-- The text of the expression adds the expression to the terms, wherever a bare token
may end after it. -/
def Reads (e : Expr) : Prop :=
  ∀ ⦃outer terms opened rest⦄, Ends (currentForm outer opened) rest →
    scan outer terms opened (e.text.toList ++ rest) = scan outer (e :: terms) opened rest

theorem Leaf.reads {e : Expr} (leaf : Leaf e) (kept : ¬e.Lossy) : Reads e := by
  intro outer terms opened rest ends
  by_cases unquoted : ∀ s, e ≠ .value (.str s)
  · rw [scan_bare (leaf.bare unquoted) ends, leaf.classify_text unquoted kept]
  · simp only [not_forall, not_not] at unquoted
    obtain ⟨s, rfl⟩ := unquoted
    obtain ⟨quote, isQuote, text, mem⟩ := quotedText_toList s
    show scan outer terms opened ((quotedText s).toList ++ rest) = _
    rw [text, List.cons_append, List.append_assoc, List.singleton_append,
      scan_quote isQuote (splitAtQuote_append (fun both => kept (mem.1 both)) rest), String.ofList_toList]

theorem ends_separator (b : Bracket) (before : List Expr) (rest : List Char) :
    Ends (currentForm outer (⟨b, before⟩ :: opened)) (b.separator :: rest) := by
  intro c first
  obtain rfl := Option.some_inj.1 first
  cases b <;> rfl

theorem ends_closer (b : Bracket) (before : List Expr) (rest : List Char) :
    Ends (currentForm outer (⟨b, before⟩ :: opened)) (b.closer :: rest) := by
  intro c first
  obtain rfl := Option.some_inj.1 first
  cases b <;> rfl

theorem scan_separator (b : Bracket) (before : List Expr) (rest : List Char) :
    scan outer terms (⟨b, before⟩ :: opened) (b.separator :: rest) = scan outer terms (⟨b, before⟩ :: opened) rest :=
  scan_idle outer (⟨b, before⟩ :: opened) (by cases b <;> rfl) rest

theorem scan_terms {b : Bracket} {before es : List Expr} (each : ∀ e ∈ es, Reads e) (rest : List Char) :
    scan outer terms (⟨b, before⟩ :: opened) (joinedText b.separator es ++ b.closer :: rest) =
      scan outer (es.reverse ++ terms) (⟨b, before⟩ :: opened) (b.closer :: rest) := by
  induction es generalizing terms with
  | nil => rfl
  | cons e es ih =>
    obtain ⟨reads, others⟩ := List.forall_mem_cons.1 each
    cases es with
    | nil => exact reads (ends_closer b before rest)
    | cons f es =>
      rw [joinedText, List.append_assoc, List.cons_append, reads (ends_separator b before _), scan_separator,
        ih others]
      simp

theorem scan_bracket {b : Bracket} {e : Expr} {es : List Expr} (each : ∀ f ∈ es, Reads f)
    (closed : b.close es = .ok e) (rest : List Char) :
    scan outer terms opened (b.termsText es ++ rest) = scan outer (e :: terms) opened rest := by
  rw [Bracket.termsText, List.cons_append, scan_open, List.append_assoc, List.singleton_append, scan_terms each,
    scan_close (by simpa using closed)]

theorem close_round {function : Expr} {args : List Expr} (present : args ≠ []) :
    Bracket.round.close (function :: args) = .ok (.apply function args) := by
  cases args with
  | nil => contradiction
  | cons arg args => rfl

theorem mem_exprLeaves {leaf : Expr} {es : List Expr} : leaf ∈ exprLeaves es ↔ ∃ e ∈ es, leaf ∈ e.leaves := by
  induction es with
  | nil => simp [exprLeaves]
  | cons e es ih => simp [exprLeaves, ih]

theorem Leaf.leaves {e : Expr} (leaf : Leaf e) : e.leaves = [e] := by
  cases leaf <;> rfl

/-- An expression without lossy leaves reads back. -/
theorem Parsed.reads {e : Expr} (parsed : Parsed e) (kept : ∀ leaf ∈ e.leaves, ¬leaf.Lossy) : Reads e := by
  induction parsed with
  | leaf leaf => exact leaf.reads (kept _ (by rw [leaf.leaves]; simp))
  | @array items parts ih =>
    intro outer terms opened rest ends
    rw [text_array]
    refine scan_bracket (fun e mem => ih e mem fun leaf inside => ?_) rfl rest
    exact kept leaf (mem_exprLeaves.2 ⟨e, mem, inside⟩)
  | @apply function args head present parts headReads ih =>
    intro outer terms opened rest ends
    rw [text_apply]
    refine scan_bracket (fun e mem => ?_) (close_round present) rest
    obtain rfl | mem := List.mem_cons.1 mem
    · exact headReads fun leaf inside => kept leaf (List.mem_append_left _ inside)
    · exact ih e mem fun leaf inside => kept leaf (List.mem_append_right _ (mem_exprLeaves.2 ⟨e, mem, inside⟩))

/-! ## Reading with loss -/

/-- The first leaves agree in number, and then one of those read is not the one written. -/
def Differs (read written : List Expr) : Prop :=
  ∃ front a back b more, read = front ++ a :: back ∧ written = front ++ b :: more ∧ a.same b = false

theorem Differs.append {read written : List Expr} (differs : Differs read written) (more : List Expr) :
    Differs read (written ++ more) := by
  obtain ⟨front, a, back, b, rest, rfl, rfl, apart⟩ := differs
  exact ⟨front, a, back, b, rest ++ more, rfl, by simp, apart⟩

theorem Differs.not_same {read written : List Expr} (differs : Differs read written) :
    ¬List.Forall₂ (fun a b : Expr => a.same b = true) read written := by
  obtain ⟨front, a, back, b, rest, rfl, rfl, apart⟩ := differs
  induction front with
  | nil =>
    intro same
    obtain ⟨head, -⟩ := List.forall₂_cons.1 same
    rw [apart] at head
    contradiction
  | cons e front ih =>
    intro same
    exact ih (List.forall₂_cons.1 same).2

/-- Whatever is read from the text of the expression, a leaf in it is not the one that
was written. -/
def Misreads (e : Expr) : Prop :=
  ∀ ⦃outer terms opened rest r⦄, Ends (currentForm outer opened) rest →
    scan outer terms opened (e.text.toList ++ rest) = .ok r →
      Differs (exprLeaves r) (readSoFar terms opened ++ e.leaves)

/-- A wrong leaf is never taken back. -/
theorem differs_of_scan {e wrong : Expr} (leaf : Leaf e) (other : Leaf wrong) (apart : wrong.same e = false)
    {s : List Char} {r : List Expr} (read : scan outer (wrong :: terms) opened s = .ok r) :
    Differs (exprLeaves r) (readSoFar terms opened ++ e.leaves) := by
  obtain ⟨more, same⟩ := readSoFar_prefix read
  rw [readSoFar_cons, other.leaves, List.append_assoc] at same
  rw [leaf.leaves]
  exact ⟨readSoFar terms opened, wrong, more, e, [], same.symm, rfl, apart⟩

theorem Leaf.misreads {e : Expr} (leaf : Leaf e) (lossy : e.Lossy) : Misreads e := by
  intro outer terms opened rest r ends read
  by_cases unquoted : ∀ s, e ≠ .value (.str s)
  · rw [scan_bare (leaf.bare unquoted) ends] at read
    exact differs_of_scan leaf (leaf_classify _) (leaf.classify_lossy unquoted lossy) read
  · simp only [not_forall, not_not] at unquoted
    obtain ⟨s, rfl⟩ := unquoted
    obtain ⟨quote, isQuote, text, mem⟩ := quotedText_toList s
    change scan outer terms opened ((quotedText s).toList ++ rest) = _ at read
    obtain ⟨literal, left, found, short⟩ := splitAtQuote_mem (mem.2 lossy) ([quote] ++ rest)
    rw [text, List.cons_append, List.append_assoc, scan_quote isQuote found] at read
    refine differs_of_scan leaf (.str _) ?_ read
    have apart : String.ofList literal ≠ s := by
      rintro rfl
      rw [String.toList_ofList] at short
      exact lt_irrefl _ short
    simpa [Expr.same, Value.same] using apart

def HasLossy (e : Expr) : Prop :=
  ∃ leaf ∈ e.leaves, leaf.Lossy

theorem scan_terms_lossy {b : Bracket} {before es : List Expr} (each : ∀ e ∈ es, ¬HasLossy e → Reads e)
    (wrong : ∀ e ∈ es, HasLossy e → Misreads e) (some : ∃ e ∈ es, HasLossy e) {rest : List Char} {r : List Expr}
    (read : scan outer terms (⟨b, before⟩ :: opened) (joinedText b.separator es ++ b.closer :: rest) = .ok r) :
    Differs (exprLeaves r) (readSoFar terms (⟨b, before⟩ :: opened) ++ exprLeaves es) := by
  induction es generalizing terms with
  | nil => simp at some
  | cons e es ih =>
    rw [exprLeaves, ← List.append_assoc]
    obtain ⟨headReads, othersRead⟩ := List.forall_mem_cons.1 each
    obtain ⟨headWrong, othersWrong⟩ := List.forall_mem_cons.1 wrong
    by_cases here : HasLossy e
    · cases es with
      | nil => exact (headWrong here (ends_closer b before rest) read).append _
      | cons f es =>
        rw [joinedText, List.append_assoc, List.cons_append] at read
        exact (headWrong here (ends_separator b before _) read).append _
    · -- The first term reads well, so its leaves join those read so far.
      have left : ∃ e ∈ es, HasLossy e := by
        obtain ⟨f, mem, lossy⟩ := some
        obtain rfl | mem := List.mem_cons.1 mem
        · exact absurd lossy here
        · exact ⟨f, mem, lossy⟩
      cases es with
      | nil => simp at left
      | cons f es =>
        rw [joinedText, List.append_assoc, List.cons_append, headReads here (ends_separator b before _),
          scan_separator] at read
        rw [← readSoFar_cons]
        exact ih othersRead othersWrong left read

theorem misreads_bracket {b : Bracket} {e : Expr} {es : List Expr} (text : e.text.toList = b.termsText es)
    (leaves : e.leaves = exprLeaves es) (each : ∀ e ∈ es, ¬HasLossy e → Reads e)
    (wrong : ∀ e ∈ es, HasLossy e → Misreads e) (lossy : HasLossy e) : Misreads e := by
  intro outer terms opened rest r ends read
  obtain ⟨leaf, mem, lost⟩ := lossy
  rw [leaves] at mem
  obtain ⟨f, part, inside⟩ := mem_exprLeaves.1 mem
  rw [text, Bracket.termsText, List.cons_append, scan_open, List.append_assoc, List.singleton_append] at read
  have differs := scan_terms_lossy each wrong ⟨f, part, leaf, inside, lost⟩ read
  rwa [readSoFar_open, ← leaves] at differs

/-- An expression with a lossy leaf does not read back. -/
theorem Parsed.misreads {e : Expr} (parsed : Parsed e) (lossy : HasLossy e) : Misreads e := by
  have reads : ∀ {e : Expr}, Parsed e → ¬HasLossy e → Reads e := fun parsed none =>
    parsed.reads fun leaf mem lost => none ⟨leaf, mem, lost⟩
  induction parsed with
  | leaf leaf =>
    obtain ⟨found, mem, lost⟩ := lossy
    rw [leaf.leaves, List.mem_singleton] at mem
    exact leaf.misreads (mem ▸ lost)
  | @array items parts ih =>
    exact misreads_bracket (text_array items) rfl (fun e mem => reads (parts e mem)) ih lossy
  | @apply function args head present parts headWrong ih =>
    refine misreads_bracket (text_apply function args) rfl (fun e mem => ?_) (fun e mem => ?_) lossy
    · obtain rfl | mem := List.mem_cons.1 mem
      · exact reads head
      · exact reads (parts e mem)
    · obtain rfl | mem := List.mem_cons.1 mem
      · exact headWrong
      · exact ih e mem

/-! ## The round trip -/

theorem ExprForm.close_list_leaves {terms : List Expr} {e : Expr} (closed : ExprForm.list.close terms = .ok e) :
    e.leaves = exprLeaves terms := by
  cases terms with
  | nil => contradiction
  | cons t ts => exact Bracket.close_leaves (b := .round) closed

theorem ends_nil (form : ExprForm) : Ends form [] := by
  intro c first
  contradiction

/-- A text that is one term is read as that term, in the forms in which one term stands for itself. -/
theorem parse_of_scan {form : ExprForm} {text : String} {e : Expr} (alone : form.close [e] = .ok e)
    (read : scan form [] [] (text.toList ++ []) = scan form [e] [] []) : Expr.parse form text = .ok e := by
  rw [List.append_nil, scan.eq_1] at read
  simp [Expr.parse, ExprForm.read, read, alone]

/-- A bare token alone is read as what it is classified as. -/
theorem parse_bare {text : String} (bare : Bare text.toList) :
    Expr.parse .list text = .ok (classify text.toList) :=
  parse_of_scan rfl (scan_bare bare (ends_nil _))

/-- The text of an expression without lossy leaves is read as the expression. -/
theorem Parsed.parse_text {e : Expr} (parsed : Parsed e) (kept : ∀ leaf ∈ e.leaves, ¬leaf.Lossy) :
    Expr.parse .list e.text = .ok e :=
  parse_of_scan rfl (parsed.reads kept (ends_nil _))

/-- What was read under any form is read from its text again, as a list of terms, exactly
if no string in it holds both quotes, no float is infinite, and every date has a local year
of four digits. -/
theorem parse_text_iff {form : ExprForm} {text : String} {e : Expr} (parsed : Expr.parse form text = .ok e) :
    (∃ again, Expr.parse .list e.text = .ok again ∧ again.same e = true) ↔ ∀ leaf ∈ e.leaves, ¬leaf.Lossy := by
  have shown := parsed_of_parse parsed
  constructor
  · rintro ⟨again, read, same⟩ leaf mem lossy
    simp only [Expr.parse, ExprForm.read] at read
    cases scanned : scan .list [] [] e.text.toList with
    | error fault =>
      rw [scanned] at read
      contradiction
    | ok terms =>
      rw [scanned] at read
      simp only at read
      split at read
      · rename_i closed
        cases read
        rw [← List.append_nil e.text.toList] at scanned
        -- One bracket or none around the terms: the leaves are those that were scanned.
        have differs := shown.misreads ⟨leaf, mem, lossy⟩ (ends_nil _) scanned
        rw [← ExprForm.close_list_leaves closed] at differs
        exact differs.not_same (same_leaves again e same)
      · contradiction
  · intro kept
    exact ⟨e, shown.parse_text kept, shown.same_self⟩

theorem parse_text_nested :
    ∃ again,
      Expr.parse .list (Expr.array [.apply (.variable "f") [.value (.str "it's")], .value (.int 1)]).text =
          .ok again ∧
        again.same (.array [.apply (.variable "f") [.value (.str "it's")], .value (.int 1)]) = true := by
  have parsed : Expr.parse .array "(f \"it's\"), 1" =
      .ok (.array [.apply (.variable "f") [.value (.str "it's")], .value (.int 1)]) := by cbv
  refine (parse_text_iff parsed).2 ?_
  simp [Expr.leaves, exprLeaves, Expr.Lossy]

end Folio
