import Folio.Expr.Parser
import Folio.Proofs.Calendar.RoundTrip
import Folio.Proofs.Decimal.RoundTrip

/-!
# Literals and names read back

The terms that reading can yield, and what becomes of the text of each when it is a bare
token again: names, truth values, integers, finite floats and dates of four-digit years
are told apart as they were the first time.  An infinite float turns into a name or a
string, and a date of another year into a string.
-/

namespace Folio

open Decimal (IsNumber isInfinite readInt64? readNat? splitSign Numeral readDecimal? readExponent?
  isDigit_of_mem_toDigits readInt64_eq_none splitSign_signed splitSign_digit)
open Calendar (Timestamp)
open Text (isBlank isAlphabetic isAlphanumeric isNumeric isBlank_eq_false isBlank_of_isDigit)

/-! ## Terms that can be read -/

/-- The terms without parts that reading yields. -/
inductive Leaf : Expr → Prop where
  | bool (b : Bool) : Leaf (.value (.bool b))
  | int (i : Int64) : Leaf (.value (.int i))
  | float {x : Float} (number : IsNumber x) : Leaf (.value (.float x))
  | str (s : String) : Leaf (.value (.str s))
  | date {t : Timestamp} (written : t.Written) : Leaf (.value (.date t))
  | name {name : String} (shown : isIdentifier name.toList = true)
      (classified : classify name.toList = .variable name) : Leaf (.variable name)

theorem isNumber_of_readDecimal {s : List Char} {x : Float} (read : readDecimal? s = some x) : IsNumber x := by
  simp only [readDecimal?] at read
  split_ifs at read
  obtain ⟨e, -, rfl⟩ := Option.map_eq_some_iff.1 read
  exact Decimal.isNumber_nearestFloat _ _ _

theorem isNumber_of_readFloatLiteral {s : List Char} {x : Float} (read : readFloatLiteral? s = some x) :
    IsNumber x := by
  simp only [readFloatLiteral?] at read
  obtain ⟨y, found, rfl⟩ := Option.map_eq_some_iff.1 read
  split
  · exact (isNumber_of_readDecimal found).neg
  · exact isNumber_of_readDecimal found

/-- A bare token is a leaf. -/
theorem leaf_classify (token : List Char) : Leaf (classify token) := by
  suffices cases : ∀ e, classify token = e → Leaf e from cases _ rfl
  intro e same
  have classified := same
  simp only [classify] at same
  split at same
  · cases same
    exact .bool true
  · split at same
    · cases same
      exact .bool false
    · split at same
      · cases same
        exact .int _
      · split at same
        · rename_i found
          cases same
          exact .float (isNumber_of_readFloatLiteral found)
        · split at same
          · rename_i shown
            cases same
            exact .name (by rwa [String.toList_ofList]) (by rwa [String.toList_ofList])
          · split at same
            · rename_i found
              cases same
              exact .date (Calendar.written_of_readTimestamp found)
            · cases same
              exact .str _

/-! ## What the tokens are told apart by -/

theorem bounds_of_isDigit {c : Char} (digit : c.isDigit = true) : 48 ≤ c.toNat ∧ c.toNat ≤ 57 := by
  simp only [Char.isDigit, Bool.and_eq_true, decide_eq_true_eq, ge_iff_le, UInt32.le_iff_toNat_le] at digit
  exact digit

theorem toLower_of_isDigit {c : Char} (digit : c.isDigit = true) : c.toLower = c := by
  have small := (bounds_of_isDigit digit).2
  unfold Char.toLower
  rw [dif_neg]
  simp only [ge_iff_le, UInt32.le_iff_toNat_le]
  intro upper
  have large : 65 ≤ c.toNat := upper.1
  omega

theorem isAlphabetic_of_isDigit {c : Char} (digit : c.isDigit = true) : isAlphabetic c = false := by
  have small := (bounds_of_isDigit digit).2
  unfold isAlphabetic
  rw [if_pos (by omega)]
  by_contra letter
  simp only [Char.isAlpha, Char.isUpper, Char.isLower, Bool.not_eq_false, Bool.or_eq_true, Bool.and_eq_true,
    decide_eq_true_eq, ge_iff_le, UInt32.le_iff_toNat_le] at letter
  change 65 ≤ c.toNat ∧ c.toNat ≤ 90 ∨ 97 ≤ c.toNat ∧ c.toNat ≤ 122 at letter
  omega

/-- Text that begins with a digit or a sign is no truth value. -/
theorem not_keyword {c : Char} {s : List Char} (starts : c.isDigit = true ∨ c = '-' ∨ c = '+') :
    (c :: s).map Char.toLower ≠ "true".toList ∧ (c :: s).map Char.toLower ≠ "false".toList := by
  have lower : c.toLower ≠ 't' ∧ c.toLower ≠ 'f' := by
    obtain digit | rfl | rfl := starts
    · rw [toLower_of_isDigit digit]
      constructor <;> (rintro rfl; contradiction)
    · decide
    · decide
  constructor
  · intro same
    exact lower.1 (List.cons.inj same).1
  · intro same
    exact lower.2 (List.cons.inj same).1

/-- Text that begins with a digit or a sign is no name. -/
theorem not_identifier {c : Char} {s : List Char} (starts : c.isDigit = true ∨ c = '-' ∨ c = '+') :
    isIdentifier (c :: s) = false := by
  have first : isAlphabetic c = false ∧ c ≠ '_' := by
    obtain digit | rfl | rfl := starts
    · refine ⟨isAlphabetic_of_isDigit digit, ?_⟩
      rintro rfl
      contradiction
    · decide
    · decide
  simp [isIdentifier, first]

/-! ## Numbers and dates as bare tokens -/

theorem classify_int (i : Int64) : classify (toString i.toInt).toList = .value (.int i) := by
  have read := Decimal.readInt64_toString i
  have starts : ∃ c s, (toString i.toInt).toList = c :: s ∧ (c.isDigit = true ∨ c = '-' ∨ c = '+') := by
    rw [Decimal.toList_toString]
    split
    · exact ⟨'-', _, rfl, .inr (.inl rfl)⟩
    · obtain ⟨c, more, first⟩ := List.exists_cons_of_ne_nil (Nat.toDigits_ne_nil (b := 10) (n := i.toInt.natAbs))
      exact ⟨c, more, first, .inl (isDigit_of_mem_toDigits (by rw [first]; simp))⟩
  obtain ⟨c, s, shown, starts⟩ := starts
  rw [shown] at read ⊢
  simp only [classify, not_keyword starts, if_false, read]

theorem classify_float {x : Float} (number : IsNumber x) (finite : isInfinite x = false) :
    classify (Decimal.Layout.literal.write x).toList = .value (.float x) := by
  obtain ⟨negative, body, magnitude, shown, numeral, read, same⟩ := Decimal.exists_numeral number finite
  obtain ⟨⟨c, more, rfl, digit⟩, ⟨mark, mem, other⟩, -⟩ := numeral
  have signed := splitSign_signed negative digit more
  have whole : readInt64? ((if negative then ['-'] else []) ++ c :: more) = none :=
    readInt64_eq_none (by rw [signed]; exact mem) other
  have decimal : readFloatLiteral? ((if negative then ['-'] else []) ++ c :: more) = some x := by
    simp only [readFloatLiteral?, signed, read, Option.map_some, same]
  obtain ⟨first, rest, front, starts⟩ : ∃ first rest, (if negative then ['-'] else []) ++ c :: more = first :: rest ∧
      (first.isDigit = true ∨ first = '-' ∨ first = '+') := by
    cases negative with
    | false => exact ⟨c, more, rfl, .inl digit⟩
    | true => exact ⟨'-', c :: more, rfl, .inr (.inl rfl)⟩
  rw [shown]
  rw [front] at whole decimal ⊢
  simp only [classify, not_keyword starts, if_false, whole, decimal]

theorem classify_infinite {x : Float} (infinite : isInfinite x = true) :
    ∃ e, classify (Decimal.Layout.literal.write x).toList = e ∧ e.same (.value (.float x)) = false := by
  unfold isInfinite at infinite
  unfold Decimal.Layout.write
  cases reading : Decimal.Reading.ofFloat x with
  | nan =>
    rw [reading] at infinite
    contradiction
  | finite negative magnitude =>
    rw [reading] at infinite
    contradiction
  | infinite negative =>
    cases negative with
    | false => exact ⟨.variable "inf", rfl, rfl⟩
    | true => exact ⟨.value (.str "-inf"), rfl, rfl⟩

/-- A name that spells no truth value is read as a name. -/
theorem classify_name {name : String} (shown : isIdentifier name.toList = true)
    (noTrue : name.toList.map Char.toLower ≠ "true".toList)
    (noFalse : name.toList.map Char.toLower ≠ "false".toList) : classify name.toList = .variable name := by
  have text : String.ofList name.toList = name := String.ofList_toList
  generalize name.toList = token at shown noTrue noFalse text
  cases token with
  | nil => contradiction
  | cons c more =>
    have other : c.isDigit = false ∧ c ≠ '-' ∧ c ≠ '+' := by
      refine ⟨?_, ?_, ?_⟩
      · by_contra digit
        rw [not_identifier (.inl (Bool.eq_true_of_not_eq_false digit))] at shown
        contradiction
      · rintro rfl
        rw [not_identifier (.inr (.inl rfl))] at shown
        contradiction
      · rintro rfl
        rw [not_identifier (.inr (.inr rfl))] at shown
        contradiction
    have noPoint : c ≠ '.' := by
      rintro rfl
      have start : isAlphabetic '.' = false := by decide
      simp [isIdentifier, start] at shown
    have unsigned := Decimal.splitSign_unsigned other.2.1 other.2.2 more
    have whole : readInt64? (c :: more) = none :=
      Decimal.readInt64_eq_none (c := c) (by rw [unsigned]; simp) other.1
    have decimal := Decimal.readDecimal_eq_none other.1 noPoint more
    simp only [classify, noTrue, noFalse, if_false, whole, readFloatLiteral?, unsigned, decimal, Option.map_none,
      if_pos shown, text]

theorem yearText_cases (year : ℤ) : ∃ n, Calendar.yearText year = Calendar.padNat '0' 4 n ∨
    Calendar.yearText year = '-' :: Calendar.padNat '0' 4 n ∨
      Calendar.yearText year = '+' :: Calendar.padNat '0' 4 n := by
  unfold Calendar.yearText
  split
  · exact ⟨_, .inl rfl⟩
  · split
    · exact ⟨_, .inr (.inl rfl)⟩
    · exact ⟨_, .inr (.inr rfl)⟩

/-- The text of a date is a year, with or without a sign, a dash, and more. -/
theorem exists_year (t : Timestamp) :
    ∃ (first : Char) (rest : List Char) (negative : Bool) (year more : List Char),
      t.text.toList = first :: rest ∧ (first.isDigit = true ∨ first = '-' ∨ first = '+') ∧
        splitSign (first :: rest) = (negative, year ++ '-' :: more) ∧ (∀ c ∈ year, c.isDigit = true) ∧
          year ≠ [] := by
  obtain ⟨n, shown⟩ := yearText_cases t.toLocal.date.year
  have digits : ∀ c ∈ Calendar.padNat '0' 4 n, c.isDigit = true :=
    fun c mem => Calendar.isDigit_of_mem_padNat mem
  have present := Calendar.padNat_ne_nil 4 n
  rw [Calendar.text_toList]
  generalize Calendar.padNat '0' 4 n = year at shown digits present
  obtain ⟨c, more, rfl⟩ := List.exists_cons_of_ne_nil present
  have digit := digits c (by simp)
  obtain shown | shown | shown := shown
  · rw [shown]
    exact ⟨c, _, false, c :: more, _, rfl, .inl digit, splitSign_digit digit _, digits, present⟩
  · rw [shown]
    exact ⟨'-', _, true, c :: more, _, rfl, .inr (.inl rfl), rfl, digits, present⟩
  · rw [shown]
    exact ⟨'+', _, false, c :: more, _, rfl, .inr (.inr rfl), rfl, digits, present⟩

theorem classify_date (t : Timestamp) :
    classify t.text.toList =
      match Calendar.readTimestamp? t.text.toList with
      | some u => .value (.date u)
      | none => .value (.str t.text) := by
  obtain ⟨first, rest, negative, year, more, front, starts, parts, digits, present⟩ := exists_year t
  -- The dash after the year belongs to no integer and ends no decimal.
  have dash : ('-' : Char).isDigit = false := rfl
  have whole : readInt64? (first :: rest) = none :=
    readInt64_eq_none (c := '-') (by rw [parts]; simp) dash
  have decimal : readFloatLiteral? (first :: rest) = none := by
    have read := Decimal.readDecimal_whole digits present ('-' :: more) fun c same => by
      obtain rfl := Option.some_inj.1 same
      decide
    have none : readExponent? ('-' :: more) = none := rfl
    simp only [readFloatLiteral?, parts, read, none, Option.map_none]
  have text : String.ofList (first :: rest) = t.text := by
    rw [← front, String.ofList_toList]
  rw [front]
  cases read : Calendar.readTimestamp? (first :: rest) <;>
    simp only [classify, not_keyword starts, not_identifier starts, if_false, whole, decimal, Bool.false_eq_true, text,
      read]

/-! ## Characters of bare tokens -/

/-- A character that no form skips, that ends no token and opens or closes nothing. -/
structure Plain (c : Char) : Prop where
  shown : isBlank c = false
  noComma : c ≠ ','
  noBracket : isBracket c = false
  noQuote : isQuote c = false
  noOpen : c ≠ '\x7b'
  noClose : c ≠ '\x7d'

theorem plain_of {p : Char → Bool} (apart : Text.blankChars.any p = false)
    (marks : [',', '(', ')', '[', ']', '\'', '"', '\x7b', '\x7d'].any p = false) {c : Char} (holds : p c = true) :
    Plain c := by
  have other : ∀ b ∈ [',', '(', ')', '[', ']', '\'', '"', '\x7b', '\x7d'], c ≠ b := by
    rintro b mem rfl
    exact List.any_eq_false.1 marks c mem holds
  refine ⟨isBlank_eq_false apart holds, other _ (by simp), ?_, ?_, other _ (by simp), other _ (by simp)⟩
  · simp [isBracket, other]
  · simp [isQuote, other]

theorem plain_of_isDigit {c : Char} (digit : c.isDigit = true) : Plain c :=
  plain_of (p := Char.isDigit) (by decide) (by decide) digit

theorem plain_mark {c : Char} (mark : c ∈ ['+', '-', ':', 'T', '.', 'e', '_']) : Plain c :=
  plain_of (p := fun c => ['+', '-', ':', 'T', '.', 'e', '_'].contains c) (by decide) (by decide) (by simpa using mark)

theorem plain_of_isAlphanumeric {c : Char} (holds : isAlphanumeric c = true) : Plain c :=
  plain_of (p := isAlphanumeric) (by decide +kernel) (by decide +kernel) holds

theorem plain_of_isIdentifier {s : List Char} (shown : isIdentifier s = true) : ∀ c ∈ s, Plain c := by
  cases s with
  | nil => simp
  | cons first rest =>
    simp only [isIdentifier, Bool.and_eq_true, Bool.or_eq_true, beq_iff_eq, List.all_eq_true] at shown
    obtain ⟨start, others⟩ := shown
    intro c mem
    obtain rfl | mem := List.mem_cons.1 mem
    · obtain letter | rfl := start
      · exact plain_of_isAlphanumeric (by simp [isAlphanumeric, letter])
      · exact plain_mark (by decide)
    · obtain (letter | rfl) | rfl := others c mem
      · exact plain_of_isAlphanumeric letter
      · exact plain_mark (by decide)
      · exact plain_mark (by decide)

/-- Text that is a single bare token. -/
structure Bare (s : List Char) : Prop where
  present : s ≠ []
  plain : ∀ c ∈ s, Plain c

def IsFigure (c : Char) : Prop :=
  c.isDigit = true ∨ c ∈ ['+', '-', ':', 'T', '.', 'e']

theorem plain_of_isFigure {c : Char} (figure : IsFigure c) : Plain c := by
  obtain digit | mark := figure
  · exact plain_of_isDigit digit
  · exact plain_mark (List.mem_append_left ['_'] mark)

theorem isFigure_toString {i : ℤ} {c : Char} (mem : c ∈ (toString i).toList) : IsFigure c := by
  rw [Decimal.toList_toString] at mem
  obtain sign | digit := List.mem_append.1 mem
  · split at sign
    · exact .inr (by simp [List.mem_singleton.1 sign])
    · contradiction
  · exact .inl (isDigit_of_mem_toDigits digit)

theorem isFigure_write {x : Float} (number : IsNumber x) (finite : isInfinite x = false) {c : Char}
    (mem : c ∈ (Decimal.Layout.literal.write x).toList) : IsFigure c := by
  obtain ⟨negative, body, magnitude, shown, numeral, -⟩ := Decimal.exists_numeral number finite
  rw [shown] at mem
  obtain sign | mem := List.mem_append.1 mem
  · split at sign
    · exact .inr (by simp [List.mem_singleton.1 sign])
    · contradiction
  · obtain digit | mark := numeral.plain c mem
    · exact .inl digit
    · exact .inr (by obtain rfl | rfl | rfl := mark <;> decide)

theorem isFigure_date {t : Timestamp} {c : Char} (mem : c ∈ t.text.toList) : IsFigure c :=
  (Calendar.isClockChar_text mem).imp_right (List.mem_append_left ['e'])

theorem bare_toString (i : ℤ) : Bare (toString i).toList := by
  refine ⟨?_, fun _ mem => plain_of_isFigure (isFigure_toString mem)⟩
  rw [Decimal.toList_toString]
  simp [Nat.toDigits_ne_nil]

theorem bare_write {x : Float} (number : IsNumber x) : Bare (Decimal.Layout.literal.write x).toList := by
  cases finite : isInfinite x with
  | true =>
    have name : ∀ c ∈ "inf".toList, Plain c := plain_of_isIdentifier rfl
    unfold isInfinite at finite
    unfold Decimal.Layout.write
    split at finite
    · rename_i negative reading
      rw [reading]
      cases negative with
      | false => exact ⟨by decide, name⟩
      | true =>
        refine ⟨by decide, fun c mem => ?_⟩
        obtain rfl | mem := List.mem_cons.1 mem
        · exact plain_mark (by decide)
        · exact name c mem
    · contradiction
  | false =>
    refine ⟨?_, fun _ mem => plain_of_isFigure (isFigure_write number finite mem)⟩
    obtain ⟨negative, body, magnitude, shown, ⟨⟨c, more, rfl, -⟩, -⟩, -⟩ := Decimal.exists_numeral number finite
    simp [shown]

theorem bare_date (t : Timestamp) : Bare t.text.toList := by
  refine ⟨?_, fun _ mem => plain_of_isFigure (isFigure_date mem)⟩
  obtain ⟨first, rest, -, -, -, front, -⟩ := exists_year t
  simp [front]

/-! ## Literals that do not read back -/

/-- A string that holds both kinds of quotes, an infinite float, and a date whose local
year has not four digits. -/
def Expr.Lossy : Expr → Prop
  | .value (.str s) => '\'' ∈ s.toList ∧ '"' ∈ s.toList
  | .value (.float x) => isInfinite x = true
  | .value (.date t) => ¬(0 ≤ t.toLocal.date.year ∧ t.toLocal.date.year ≤ 9999)
  | _ => False

variable {e : Expr}

/-- The text of every leaf but a string is a bare token. -/
theorem Leaf.bare (leaf : Leaf e) (unquoted : ∀ s, e ≠ .value (.str s)) : Bare e.text.toList := by
  cases leaf with
  | bool b =>
    have name : ∀ c ∈ (if b then "true" else "false").toList, Plain c := by
      cases b <;> exact plain_of_isIdentifier rfl
    exact ⟨by cases b <;> decide, name⟩
  | int i => exact bare_toString i.toInt
  | float number => exact bare_write number
  | str s => exact absurd rfl (unquoted s)
  | date written => exact bare_date _
  | @name name shown classified =>
    refine ⟨?_, plain_of_isIdentifier shown⟩
    intro empty
    change name.toList = [] at empty
    rw [empty] at shown
    contradiction

/-- A bare token that is the text of a leaf is read as the leaf, unless it is lossy. -/
theorem Leaf.classify_text (leaf : Leaf e) (unquoted : ∀ s, e ≠ .value (.str s)) (kept : ¬e.Lossy) :
    classify e.text.toList = e := by
  cases leaf with
  | bool b => cases b <;> rfl
  | int i => exact classify_int i
  | float number =>
    have finite := Bool.eq_false_of_not_eq_true kept
    exact classify_float number finite
  | str s => exact absurd rfl (unquoted s)
  | date written =>
    obtain ⟨least, most⟩ := not_not.1 kept
    exact (classify_date _).trans (by rw [Calendar.readTimestamp_text written least most])
  | name shown classified => exact classified

theorem Leaf.classify_lossy (leaf : Leaf e) (unquoted : ∀ s, e ≠ .value (.str s)) (lossy : e.Lossy) :
    (classify e.text.toList).same e = false := by
  cases leaf with
  | bool b => contradiction
  | int i => contradiction
  | float number =>
    obtain ⟨other, read, differs⟩ := classify_infinite lossy
    exact (congrArg (Expr.same · _) read).trans differs
  | str s => exact absurd rfl (unquoted s)
  | @date t written =>
    have read := classify_date t
    rw [Calendar.readTimestamp_text_eq_none written lossy] at read
    show (classify t.text.toList).same _ = false
    rw [read]
    rfl
  | name shown classified => contradiction

end Folio
