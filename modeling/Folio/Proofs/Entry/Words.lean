import Folio.Proofs.Entry.Resolution
import Folio.Proofs.Expr.Grammar

/-!
# Words as names

Tags and categories are given as words between commas.  Each word is first read like any other bare
token, as a truth value, a number, a name, a date or a string, and what has been read is then
written out as a name.  The name is the word itself unless the word spells a truth value or a number
in another way than it is written out, or is a date, which is no name at all.

Main statement: `words_name`.
-/

namespace Folio

open Calendar (readTimestamp? readInternet? readForm? takeForm? takeFixed? takeNumber? takeYear? forms dateForm
  FormField)
open Decimal (readInt64?)
open Text (isBlank isBlankText trimChars)

/-! ## Words -/

/-- A text between commas: neither empty nor with blanks around it, without commas and brackets, and
not in quotes. -/
structure BareWord (word : String) : Prop where
  present : word ≠ ""
  trimmed : Text.trim word = word
  inside : ∀ c ∈ word.toList, c ≠ ',' ∧ isBracket c = false
  unquoted : ∀ c ∈ word.toList.head?, isQuote c = false

/-- The name that a word stands for; a date is none. -/
def wordName? (word : String) : Option String :=
  literalName? (classify word.toList)

/-- What a word stands for, the first of these that fits: a truth value and a number, as they are
written out; a date, which is no name; or itself. -/
inductive StandsFor (word : String) : Option String → Prop where
  | truth {text : String} (known : text ∈ ["true", "false"]) (spelled : word.toList.map Char.toLower = text.toList) :
      StandsFor word (some text)
  | whole {i : Int64} (read : readInt64? word.toList = some i) : StandsFor word (some (toString i.toInt))
  | decimal {x : Float} (noWhole : readInt64? word.toList = none) (read : readFloatLiteral? word.toList = some x) :
      StandsFor word (some (Decimal.Layout.plain.write x))
  | date {t : Calendar.Timestamp} (noName : isIdentifier word.toList = false)
      (noWhole : readInt64? word.toList = none) (noDecimal : readFloatLiteral? word.toList = none)
      (read : readTimestamp? word.toList = some t) : StandsFor word none
  | itself (noTruth : ∀ text ∈ ["true", "false"], word.toList.map Char.toLower ≠ text.toList)
      (noWhole : readInt64? word.toList = none) (noDecimal : readFloatLiteral? word.toList = none)
      (undated : isIdentifier word.toList = false → readTimestamp? word.toList = none) : StandsFor word (some word)

/-- The word is written as its name is: truth values are in lower case, numbers in the way in which
numbers are written out, and there are no dates. -/
structure Kept (word : String) : Prop where
  truth : ∀ text ∈ ["true", "false"], word.toList.map Char.toLower = text.toList → word = text
  whole : ∀ i, readInt64? word.toList = some i → word = toString i.toInt
  decimal : ∀ x, readInt64? word.toList = none → readFloatLiteral? word.toList = some x →
    word = Decimal.Layout.plain.write x
  undated : readInt64? word.toList = none → readFloatLiteral? word.toList = none →
    isIdentifier word.toList = false → readTimestamp? word.toList = none

variable {word : String} {words : List String}

theorem BareWord.trimChars_eq (bare : BareWord word) : trimChars word.toList = word.toList := by
  rw [← String.toList_ofList (l := trimChars word.toList)]
  exact congrArg String.toList bare.trimmed

theorem BareWord.exists_cons (bare : BareWord word) :
    ∃ c more, word.toList = c :: more ∧ isBlank c = false := by
  obtain ⟨c, more, same⟩ : ∃ c more, word.toList = c :: more :=
    List.exists_cons_of_ne_nil fun empty => bare.present (String.toList_eq_nil_iff.1 empty)
  refine ⟨c, more, same, ?_⟩
  by_contra blank
  have shorter : (trimChars (c :: more)).length ≤ more.length := by
    rw [trimChars, Text.trimStartChars, List.dropWhile_cons_of_pos (by simpa using blank), Text.trimEndChars,
      List.length_reverse]
    have start := (more.dropWhile_sublist isBlank).length_le
    have finish := ((more.dropWhile isBlank).reverse.dropWhile_sublist isBlank).length_le
    rw [List.length_reverse] at finish
    omega
  rw [← same, bare.trimChars_eq, same, List.length_cons] at shorter
  omega

/-- Words that can stand in a header field with commas between them. -/
structure HeaderWords (words : List String) : Prop where
  present : words ≠ []
  bare : ∀ w ∈ words, BareWord w

/-! ## Reading words -/

/-- Words between commas are read as their bare tokens. -/
theorem terms_of_words (bare : ∀ w ∈ words, BareWord w) :
    Terms .array (String.intercalate "," words).toList (words.map fun w => classify w.toList) := by
  induction words with
  | nil => exact .nil
  | cons word words ih =>
    obtain ⟨first, later⟩ := List.forall_mem_cons.1 bare
    obtain ⟨c, more, same, shown⟩ := first.exists_cons
    have outside : ∀ d ∈ c :: more, d ≠ ',' ∧ isBracket d = false := same ▸ first.inside
    have starts : StartsToken .array c :=
      ⟨isIdle_of_shown shown (outside c (by simp)).1, first.unquoted c (by rw [same]; rfl), (outside c (by simp)).2⟩
    have goesOn : ∀ d ∈ more, ExprForm.array.isTerminator d = false := fun d mem => by
      simp [ExprForm.isTerminator, outside d (List.mem_cons_of_mem c mem)]
    have token : classify (trimChars (c :: more)) = classify word.toList := by rw [← same, first.trimChars_eq]
    cases words with
    | nil =>
      have alone := Terms.token starts goesOn (ends_nil .array) .nil
      rw [token, List.append_nil] at alone
      simpa [same] using alone
    | cons second words =>
      -- The comma after the word ends its token, and is skipped.
      have ends : Ends .array (',' :: (String.intercalate "," (second :: words)).toList) := by
        intro d first
        cases first
        rfl
      have whole := Terms.token starts goesOn ends (.idle rfl (ih later))
      rw [token, ← List.cons_append, ← same] at whole
      simpa [String.intercalate_cons_cons] using whole

theorem parseItems_words (header : HeaderWords words) :
    parseItems (String.intercalate "," words) = .ok (words.map fun w => classify w.toList) := by
  have closed : ExprForm.array.close (words.map fun w => classify w.toList) =
      .ok (.array (words.map fun w => classify w.toList)) := by
    refine ExprForm.close_array (by simpa using header.present) fun items same => ?_
    obtain ⟨w, -, single⟩ := List.map_eq_singleton_iff.1 same
    exact classify_ne_array _ _ single
  rw [parseItems, Expr.parse, ExprForm.read, scan_eq_ok_iff.2 (terms_of_words header.bare)]
  simp only [closed]

theorem isBlankText_words (header : HeaderWords words) : isBlankText (String.intercalate "," words) = false := by
  obtain ⟨word, others, rfl⟩ := List.exists_cons_of_ne_nil header.present
  obtain ⟨c, more, same, shown⟩ := (header.bare word (by simp)).exists_cons
  have front : c ∈ (String.intercalate "," (word :: others)).toList := by
    cases others <;> simp [same]
  rw [isBlankText, List.all_eq_false]
  exact ⟨c, front, by simp [shown]⟩

/-! ## The names of words -/

section Names

variable {c : Char} {more : List Char}

/-- No number begins otherwise than with a digit, a sign or a point. -/
theorem not_number (noDigit : c.isDigit = false) (other : c ∉ ['-', '+', '.']) (more : List Char) :
    readInt64? (c :: more) = none ∧ readFloatLiteral? (c :: more) = none := by
  simp only [List.mem_cons, List.not_mem_nil, or_false, not_or] at other
  have unsigned := Decimal.splitSign_unsigned other.1 other.2.1 more
  refine ⟨Decimal.readInt64_eq_none (c := c) (by rw [unsigned]; simp) noDigit, ?_⟩
  rw [readFloatLiteral?, unsigned]
  simp only [Decimal.readDecimal_eq_none noDigit other.2.2, Option.map_none]

theorem not_number_of_truth {text : String} (known : text ∈ ["true", "false"])
    (spelled : word.toList.map Char.toLower = text.toList) :
    readInt64? word.toList = none ∧ readFloatLiteral? word.toList = none := by
  obtain ⟨d, rest, shown, start⟩ : ∃ d rest, text.toList = d :: rest ∧ d ∈ ['t', 'f'] := by
    obtain rfl | rfl : text = "true" ∨ text = "false" := by simpa using known
    · exact ⟨'t', _, rfl, by simp⟩
    · exact ⟨'f', _, rfl, by simp⟩
  rw [shown] at spelled
  obtain ⟨c, more, same, lower, -⟩ := List.map_eq_cons_iff.1 spelled
  have letter : ∀ d ∈ ['t', 'f'], d.isDigit = false ∧ d ∉ ['-', '+', '.'] := by simp
  have marks : ∀ c ∈ ['-', '+', '.'], c.toLower = c := by simp
  obtain ⟨noDigit, noMark⟩ := letter d start
  rw [same]
  refine not_number ?_ (fun mark => noMark (by rwa [← lower, marks c mark])) more
  by_contra digit
  rw [← lower, toLower_of_isDigit (Bool.eq_true_of_not_eq_false digit)] at noDigit
  exact digit noDigit

theorem standsFor_wordName? (word : String) : StandsFor word (wordName? word) := by
  simp only [wordName?, classify]
  by_cases isTrue : word.toList.map Char.toLower = "true".toList
  · rw [if_pos isTrue]
    exact .truth (by simp) isTrue
  by_cases isFalse : word.toList.map Char.toLower = "false".toList
  · rw [if_neg isTrue, if_pos isFalse]
    exact .truth (by simp) isFalse
  have noTruth : ∀ text ∈ ["true", "false"], word.toList.map Char.toLower ≠ text.toList := by
    simpa using ⟨isTrue, isFalse⟩
  rw [if_neg isTrue, if_neg isFalse, String.ofList_toList]
  cases whole : readInt64? word.toList with
  | some i => exact .whole whole
  | none =>
    cases decimal : readFloatLiteral? word.toList with
    | some x => exact .decimal whole decimal
    | none =>
      dsimp only
      cases isName : isIdentifier word.toList with
      | true => exact .itself noTruth whole decimal fun noName => by simp [isName] at noName
      | false =>
        cases date : readTimestamp? word.toList with
        | some t => exact .date isName whole decimal date
        | none => exact .itself noTruth whole decimal fun _ => date

/-- A word gives itself as a name exactly if it is kept. -/
theorem wordName?_eq_self_iff : wordName? word = some word ↔ Kept word := by
  have reading := standsFor_wordName? word
  generalize wordName? word = name? at reading
  cases reading with
  | @truth text known spelled =>
    obtain ⟨noWhole, noDecimal⟩ := not_number_of_truth known spelled
    have isName : isIdentifier "true".toList = true ∧ isIdentifier "false".toList = true := by decide +kernel
    rw [Option.some_inj]
    constructor
    · rintro rfl
      refine ⟨fun other _ spelled' => ?_, by simp [noWhole], by simp [noDecimal], fun _ _ noName => ?_⟩
      · exact String.toList_inj.1 (spelled.symm.trans spelled')
      · obtain rfl | rfl : text = "true" ∨ text = "false" := by simpa using known
        · rw [isName.1] at noName
          contradiction
        · rw [isName.2] at noName
          contradiction
    · exact fun kept => (kept.truth text known spelled).symm
  | @whole i read =>
    rw [Option.some_inj]
    constructor
    · intro same
      refine ⟨fun text known spelled => ?_, fun j read' => ?_, by simp [read], by simp [read]⟩
      · simp [(not_number_of_truth known spelled).1] at read
      · rw [read] at read'
        cases read'
        exact same.symm
    · exact fun kept => (kept.whole i read).symm
  | @decimal x noWhole read =>
    rw [Option.some_inj]
    constructor
    · intro same
      refine ⟨fun text known spelled => ?_, by simp [noWhole], fun y _ read' => ?_, by simp [read]⟩
      · simp [(not_number_of_truth known spelled).2] at read
      · rw [read] at read'
        cases read'
        exact same.symm
    · exact fun kept => (kept.decimal x noWhole read).symm
  | date noName noWhole noDecimal read =>
    refine iff_of_false (by simp) fun kept => ?_
    simp [kept.undated noWhole noDecimal noName] at read
  | itself noTruth noWhole noDecimal undated =>
    refine iff_of_true rfl ⟨fun text known spelled => absurd spelled (noTruth text known), by simp [noWhole],
      by simp [noDecimal], fun _ _ => undated⟩

theorem takeNumber?_eq_none (noDigit : c.isDigit = false) (width : ℕ) : takeNumber? width (c :: more) = none := by
  cases width <;> simp [takeNumber?, noDigit]

/-- No date begins otherwise than with a digit or a sign. -/
theorem readTimestamp?_eq_none (trimmed : trimChars (c :: more) = c :: more) (shown : isBlank c = false)
    (noDigit : c.isDigit = false) (other : c ∉ ['-', '+']) : readTimestamp? (c :: more) = none := by
  simp only [List.mem_cons, List.not_mem_nil, or_false, not_or] at other
  have noNumber (width : ℕ) : takeNumber? width (c :: more) = none := takeNumber?_eq_none noDigit width
  have noYear : takeYear? (c :: more) = none := by
    unfold takeYear?
    split
    · rename_i same
      exact absurd (List.cons.inj same).1 other.1
    · rename_i same
      exact absurd (List.cons.inj same).1 other.2
    · rw [noNumber, Option.map_none]
  have years : ∀ form ∈ forms, ∃ rest, form = .year :: rest := by
    simp [forms, dateForm]
  have noInternet : readInternet? (c :: more) = none := by
    have noFigures : takeFixed? 4 (c :: more) = none := by rw [takeFixed?, noNumber]
    rw [readInternet?, noFigures]
    rfl
  have noForm : forms.findSome? (fun form => readForm? form (c :: more)) = none := by
    rw [List.findSome?_eq_none_iff]
    intro form mem
    obtain ⟨rest, rfl⟩ := years form mem
    simp [readForm?, takeForm?, FormField.take?, Text.trimStartChars_cons shown, noYear]
  simp only [readTimestamp?, trimmed, noInternet, noForm]

/-- A word that begins otherwise than a number or a date is kept, unless it is a truth value in capitals. -/
theorem kept_of_start (bare : BareWord word) (same : word.toList = c :: more) (noDigit : c.isDigit = false)
    (other : c ∉ ['-', '+', '.'])
    (truth : ∀ text ∈ ["true", "false"], word.toList.map Char.toLower = text.toList → word = text) : Kept word := by
  obtain ⟨noWhole, noDecimal⟩ := not_number noDigit other more
  rw [← same] at noWhole noDecimal
  refine ⟨truth, by simp [noWhole], by simp [noDecimal], fun _ _ _ => ?_⟩
  obtain ⟨first, rest, begins, shown⟩ := bare.exists_cons
  obtain ⟨rfl, rfl⟩ := List.cons.inj (same.symm.trans begins)
  rw [same]
  exact readTimestamp?_eq_none (by rw [← same, bare.trimChars_eq]) shown noDigit fun sign =>
    other (List.mem_append_left ['.'] sign)

end Names

/-! ## Tags and categories -/

theorem tagTerm_word_iff {name : String} :
    tagTerm (classify word.toList) = .value (namedTag name) ↔ wordName? word = some name := by
  rw [tagTerm, wordName?, namedTag]
  cases named : literalName? (classify word.toList) with
  | some other => simp
  | none =>
    refine iff_of_false (fun same : classify word.toList = _ => ?_) (by simp)
    have leaf := leaf_classify word.toList
    rw [same] at leaf
    cases leaf

theorem parseField_tags_words (header : HeaderWords words) :
    Expr.parseField "tags" (String.intercalate "," words) =
      .ok (.array (words.map fun w => tagTerm (classify w.toList))) := by
  rw [Expr.parseField, if_pos rfl, isBlankText_words header, if_neg Bool.false_ne_true, parseItems_words header]
  simp [Function.comp_def]

theorem segmentNames_eq_ok_iff {terms : List Expr} {names : List String} :
    segmentNames terms = .ok names ↔ terms.map literalName? = names.map some := by
  induction terms generalizing names with
  | nil => cases names <;> simp [segmentNames]
  | cons term terms ih =>
    cases named : literalName? term with
    | none => cases names <;> simp [segmentNames, named]
    | some name =>
      have step : segmentNames (term :: terms) = (segmentNames terms).map (name :: ·) := by
        rw [segmentNames, named]
        cases segmentNames terms <;> rfl
      rw [step]
      cases names with
      | nil => cases segmentNames terms <;> simp [Except.map]
      | cons first names =>
        simp only [List.map_cons, named, List.cons.injEq, Option.some_inj, ← ih]
        cases segmentNames terms <;> simp [Except.map]

theorem categoryOfNames_eq_iff {names : List String} {c : CategoryName} :
    categoryOfNames names = .entry (.categoryName c) ↔ c.path = names := by
  obtain rfl | ⟨above, name, rfl⟩ := List.eq_nil_or_concat names
  · simp [categoryOfNames, CategoryName.path]
  · obtain ⟨a, n⟩ := c
    simp only [categoryOfNames, CategoryName.path, List.concat_eq_append, List.getLast?_concat, List.dropLast_concat]
    constructor
    · intro same
      cases same
      rfl
    · intro same
      obtain ⟨rfl, last⟩ := List.append_inj' same rfl
      cases last
      rfl

/-- Words stand for a category exactly if each has a name, and the names are its path. -/
theorem parseField_category_words_iff (header : HeaderWords words) {names : List String} :
    (∃ c : CategoryName, Expr.parseField "category" (String.intercalate "," words) =
        .ok (.value (.entry (.categoryName c))) ∧ c.path = names) ↔
      words.map wordName? = names.map some := by
  have segments : segmentNames (words.map fun w => classify w.toList) = .ok names ↔
      words.map wordName? = names.map some := by
    rw [segmentNames_eq_ok_iff, List.map_map]
    rfl
  rw [Expr.parseField, if_neg (by decide), if_pos rfl, isBlankText_words header, if_neg Bool.false_ne_true,
    parseItems_words header, ← segments]
  dsimp only
  cases made : segmentNames (words.map fun w => classify w.toList) with
  | error fault => simp
  | ok others =>
    simp only [Except.ok.injEq, Expr.value.injEq]
    constructor
    · rintro ⟨c, same, path⟩
      rw [← path, categoryOfNames_eq_iff.1 same]
    · rintro rfl
      obtain rfl | ⟨above, name, rfl⟩ := List.eq_nil_or_concat others
      · exact absurd (segments.1 made) (by simpa using header.present)
      · exact ⟨⟨above, name⟩, categoryOfNames_eq_iff.2 (by simp [CategoryName.path]), by simp [CategoryName.path]⟩

/-! ## The index of tags -/

section Index

variable {tools : Toolbox} {canceled : Bool} {s : Scope} {d : Document}

/-- The header of the document has these words under `tags`. -/
structure Document.TaggedBy (d : Document) (words : List String) : Prop where
  header : HeaderWords words
  field : ∃ e, Keyed.get? "tags" d.header = some e ∧ Expr.parseField "tags" (String.intercalate "," words) = .ok e

theorem tagTerms_of_kept (kept : ∀ w ∈ words, Kept w) :
    words.map (fun w => tagTerm (classify w.toList)) = (words.map namedTag).map .value := by
  rw [List.map_map]
  exact List.map_congr_left fun w mem => tagTerm_word_iff.2 (wordName?_eq_self_iff.2 (kept w mem))

theorem Document.TaggedBy.tags_eq (tagged : d.TaggedBy words) (kept : ∀ w ∈ words, Kept w) (depth : ℕ) :
    d.tags (reducerOfDepth tools canceled (depth + 2)) s = pure (words.map namedTag) := by
  obtain ⟨e, found, read⟩ := tagged.field
  rw [parseField_tags_words tagged.header, tagTerms_of_kept kept] at read
  cases read
  rw [Document.tags, Document.field?, found]
  simp only [Scoping.inside_bind]
  rw [reduce_values]
  simp only [pure_bind, Value.flatten, flattenValues_namedTags]

theorem tagIndex_of_words {documents : List Document} {words : Document → List String}
    (distinct : (documents.map (·.id)).Nodup) (tagged : ∀ d ∈ documents, d.TaggedBy (words d))
    (kept : ∀ d ∈ documents, ∀ w ∈ words d, Kept w) (depth firstId : ℕ)
    (dated : ∀ d ∈ documents, ∃ date, d.date (reducerOfDepth tools canceled (depth + 2)) s = pure date) :
    ∃ index, tagIndex (reducerOfDepth tools canceled (depth + 2)) firstId s documents = pure index ∧
      ∀ name, name ∈ index.map (·.name) ↔ ∃ d ∈ documents, name ∈ words d := by
  choose! dates known using dated
  have named : ∀ d ∈ documents,
      tagNamesOf (reducerOfDepth tools canceled (depth + 2)) s ((words d).map namedTag) = pure (words d) := by
    intro d _
    rw [tagNamesOf_eq_pure, List.forall₂_map_left_iff, List.forall₂_same]
    exact fun _ _ => rfl
  refine ⟨_, tagIndex_eq known (fun d mem => (tagged d mem).tags_eq (kept d mem) depth) named firstId, fun name => ?_⟩
  rw [(inverts_tagsOfGroups distinct dates words firstId).named_iff name, and_iff_right_of_imp]
  rintro ⟨d, mem, written⟩
  obtain ⟨c, more, same, shown⟩ := ((tagged d mem).header.bare name written).exists_cons
  simp [isBlankText, same, shown]

end Index

/-- Words between commas are tags and a category: each word is a tag if it stands for a name, and
together they are the path of a category if each of them does.  A word stands for itself exactly if
it is kept.  So words that are kept are the names of the tags, the path of the category, and the
names in the index of tags, in every scope and so in every language. -/
theorem words_name (words : List String) (header : HeaderWords words) :
    (∀ w ∈ words, StandsFor w (wordName? w) ∧ (wordName? w = some w ↔ Kept w)) ∧
      (∃ terms, Expr.parseField "tags" (String.intercalate "," words) = .ok (.array terms) ∧
        List.Forall₂ (fun w term => ∀ name, term = .value (namedTag name) ↔ wordName? w = some name) words terms) ∧
      (∀ names, (∃ c : CategoryName, Expr.parseField "category" (String.intercalate "," words) =
          .ok (.value (.entry (.categoryName c))) ∧ c.path = names) ↔ words.map wordName? = names.map some) ∧
      ((∀ w ∈ words, Kept w) →
        Expr.parseField "tags" (String.intercalate "," words) = .ok (.array ((words.map namedTag).map .value)) ∧
          ∃ c : CategoryName, Expr.parseField "category" (String.intercalate "," words) =
            .ok (.value (.entry (.categoryName c))) ∧ c.path = words) ∧
      ∀ tools canceled depth s firstId (documents : List Document) (headers : Document → List String),
        (documents.map (·.id)).Nodup →
        (∀ d ∈ documents, d.TaggedBy (headers d) ∧ (∀ w ∈ headers d, Kept w) ∧
          ∃ date, d.date (reducerOfDepth tools canceled (depth + 2)) s = pure date) →
        ∃ index, tagIndex (reducerOfDepth tools canceled (depth + 2)) firstId s documents = pure index ∧
          ∀ name, name ∈ index.map (·.name) ↔ ∃ d ∈ documents, name ∈ headers d := by
  refine ⟨fun w _ => ⟨standsFor_wordName? w, wordName?_eq_self_iff⟩, ?_,
    fun names => parseField_category_words_iff header, fun kept => ⟨?_, ?_⟩, ?_⟩
  · refine ⟨_, parseField_tags_words header, ?_⟩
    rw [List.forall₂_map_right_iff, List.forall₂_same]
    exact fun w _ name => tagTerm_word_iff
  · rw [parseField_tags_words header, tagTerms_of_kept kept]
  · rw [parseField_category_words_iff header]
    exact List.map_congr_left fun w mem => wordName?_eq_self_iff.2 (kept w mem)
  · intro tools canceled depth s firstId documents headers distinct each
    exact tagIndex_of_words distinct (fun d mem => (each d mem).1) (fun d mem => (each d mem).2.1) depth firstId
      fun d mem => (each d mem).2.2

/-- `Moss,2024` names two tags, or a category in another. -/
theorem words_name_year :
    let tags : Expr := .array [.value (namedTag "Moss"), .value (namedTag "2024")]
    let d : Document := ⟨0, .parse "a.md", [("tags", tags)]⟩
    Expr.parseField "tags" "Moss,2024" = .ok tags ∧
      (∃ c : CategoryName, Expr.parseField "category" "Moss,2024" = .ok (.value (.entry (.categoryName c))) ∧
        c.path = ["Moss", "2024"]) ∧
      ∃ index, tagIndex (reducerOfDepth Builtin.toolbox false 2) 1 (.root [("lang", .value (.str "de"))]) [d] =
          pure index ∧ ∀ name, name ∈ index.map (·.name) ↔ name = "Moss" ∨ name = "2024" := by
  intro tags d
  have header : HeaderWords ["Moss", "2024"] := by
    refine ⟨by simp, ?_⟩
    simp only [List.forall_mem_cons]
    exact ⟨⟨by simp, by decide, by simp [isBracket], by simp [isQuote]⟩,
      ⟨by simp, by decide, by simp [isBracket], by simp [isQuote]⟩, by simp⟩
  have kept : ∀ w ∈ ["Moss", "2024"], Kept w := by
    simp only [List.forall_mem_cons]
    refine ⟨?_, ?_, by simp⟩
    · exact kept_of_start (c := 'M') (header.bare "Moss" (by simp)) rfl (by decide) (by simp) (by simp)
    · refine wordName?_eq_self_iff.1 ?_
      rw [wordName?, show "2024" = toString (2024 : Int64).toInt by rfl, classify_int]
      rfl
  obtain ⟨-, -, -, named, indexed⟩ := words_name _ header
  obtain ⟨isTags, isCategory⟩ := named kept
  have tagged : d.TaggedBy ["Moss", "2024"] := ⟨header, tags, rfl, isTags⟩
  obtain ⟨index, made, names⟩ := indexed Builtin.toolbox false 0 (.root [("lang", .value (.str "de"))]) 1 [d]
    (fun _ => ["Moss", "2024"]) (by simp) (by simpa using ⟨tagged, by simpa using kept, none, rfl⟩)
  exact ⟨isTags, isCategory, index, made, fun name => by simp [names]⟩

/-- The tag `TRUE` loses its capitals, and the category `007` its zeros. -/
theorem words_respelled :
    HeaderWords ["TRUE"] ∧ Expr.parseField "tags" "TRUE" = .ok (.array [.value (namedTag "true")]) ∧
      HeaderWords ["007"] ∧ ∃ c : CategoryName,
        Expr.parseField "category" "007" = .ok (.value (.entry (.categoryName c))) ∧ c.path = ["7"] := by
  have tags : HeaderWords ["TRUE"] :=
    ⟨by simp, by simpa using ⟨by simp, by decide, by simp [isBracket], by simp [isQuote]⟩⟩
  have category : HeaderWords ["007"] :=
    ⟨by simp, by simpa using ⟨by simp, by decide, by simp [isBracket], by simp [isQuote]⟩⟩
  refine ⟨tags, parseField_tags_words tags, category, (parseField_category_words_iff category).2 ?_⟩
  have seven : wordName? "007" = some "7" := by rfl
  rw [List.map_cons, seven]
  rfl

end Folio
