import Folio.Decimal.Numeral
import Folio.Decimal.Layout
import Folio.Proofs.Text.Run
import Mathlib.Tactic

/-!
# Numerals read back

The digits of a natural number read back as the number, and the text of a 64-bit integer
as the integer.  For decimals only the parts are told apart here: which characters are
the whole part, which the decimals, and where the exponent begins.
-/

namespace Folio.Decimal

open Folio.Text (takeWhile_run)

/-! ## Runs of digits -/

theorem digitsValue_toDigits (n : ℕ) : digitsValue 0 (Nat.toDigits 10 n) = n :=
  Nat.ofDigitChars_ten_toDigits

theorem digitsValue_append (start : ℕ) (s t : List Char) :
    digitsValue start (s ++ t) = digitsValue (digitsValue start s) t :=
  List.foldl_append

theorem digitsValue_zeros (start k : ℕ) :
    digitsValue start (List.replicate k '0') = 10 ^ k * start :=
  Nat.ofDigitChars_replicate_zero

/-- Zeros in front do not count. -/
theorem digitsValue_significant (s : List Char) : digitsValue 0 (significant s) = digitsValue 0 s := by
  induction s with
  | nil => rfl
  | cons c s ih =>
    by_cases zero : c = '0'
    · subst zero
      rw [significant, List.dropWhile_cons_of_pos rfl]
      exact ih
    · rw [significant, List.dropWhile_cons_of_neg (by simpa using zero)]

theorem isDigit_of_mem_toDigits {n : ℕ} {c : Char} (mem : c ∈ Nat.toDigits 10 n) : c.isDigit = true :=
  Nat.isDigit_of_mem_toDigits (by norm_num) (by norm_num) mem

theorem isDigit_of_mem_zeros {k : ℕ} {c : Char} (mem : c ∈ List.replicate k '0') : c.isDigit = true := by
  rw [List.eq_of_mem_replicate mem]
  rfl

theorem le_of_digits {n : ℕ} (positive : 0 < n) : 10 ^ ((Nat.toDigits 10 n).length - 1) ≤ n := by
  by_contra small
  obtain short | long := Nat.eq_zero_or_pos ((Nat.toDigits 10 n).length - 1)
  · rw [short] at small
    omega
  · have fewer := (Nat.length_toDigits_le_iff (by norm_num) long).2 (not_le.1 small)
    omega

theorem digitsValue_lt {s : List Char} (digits : ∀ c ∈ s, c.isDigit = true) (start : ℕ) :
    digitsValue start s < (start + 1) * 10 ^ s.length := by
  induction s generalizing start with
  | nil => simp [digitsValue]
  | cons c s ih =>
    have digit : digitValue c ≤ 9 := by
      have isDigit := digits c (by simp)
      simp only [Char.isDigit, Bool.and_eq_true, decide_eq_true_eq, ge_iff_le, UInt32.le_iff_toNat_le] at isDigit
      exact Nat.sub_le_iff_le_add.2 isDigit.2
    have rest := ih (fun c mem => digits c (List.mem_cons_of_mem _ mem)) (10 * start + digitValue c)
    show digitsValue (10 * start + digitValue c) s < _
    calc
      _ < (10 * start + digitValue c + 1) * 10 ^ s.length := rest
      _ ≤ (10 * (start + 1)) * 10 ^ s.length := Nat.mul_le_mul_right _ (by omega)
      _ = (start + 1) * 10 ^ (s.length + 1) := by ring

theorem readNat_digits {s : List Char} (digits : ∀ c ∈ s, c.isDigit = true) (nonempty : s ≠ []) :
    readNat? s = some (digitsValue 0 s) := by
  have none : s.any (fun c => !c.isDigit) = false := by
    simpa using digits
  simp [readNat?, none, nonempty]

theorem readNat_toDigits (n : ℕ) : readNat? (Nat.toDigits 10 n) = some n := by
  rw [readNat_digits (fun _ => isDigit_of_mem_toDigits) Nat.toDigits_ne_nil, digitsValue_toDigits]

theorem readNat_eq_none {s : List Char} {c : Char} (mem : c ∈ s) (other : c.isDigit = false) :
    readNat? s = none := by
  have found : s.any (fun c => !c.isDigit) = true := List.any_eq_true.2 ⟨c, mem, by simp [other]⟩
  simp [readNat?, found]

/-! ## Signs -/

theorem splitSign_minus (s : List Char) : splitSign ('-' :: s) = (true, s) := rfl

theorem splitSign_unsigned {c : Char} (noMinus : c ≠ '-') (noPlus : c ≠ '+') (s : List Char) :
    splitSign (c :: s) = (false, c :: s) := by
  unfold splitSign
  split
  · rename_i same
    exact absurd (List.cons.inj same).1 noMinus
  · rename_i same
    exact absurd (List.cons.inj same).1 noPlus
  · rfl

theorem splitSign_digit {c : Char} (digit : c.isDigit = true) (s : List Char) :
    splitSign (c :: s) = (false, c :: s) := by
  refine splitSign_unsigned ?_ ?_ s
  · rintro rfl
    contradiction
  · rintro rfl
    contradiction

theorem splitSign_digits {s : List Char} (digits : ∀ c ∈ s, c.isDigit = true) :
    splitSign s = (false, s) := by
  cases s with
  | nil => rfl
  | cons c s => exact splitSign_digit (digits c (by simp)) s

/-- A sign that is written for a negative number and read again. -/
theorem splitSign_signed (negative : Bool) {c : Char} (digit : c.isDigit = true) (s : List Char) :
    splitSign ((if negative then ['-'] else []) ++ c :: s) = (negative, c :: s) := by
  cases negative with
  | false => exact splitSign_digit digit s
  | true => rfl

/-- Text that holds a character besides its digits is no integer. -/
theorem readInt64_eq_none {s : List Char} {c : Char} (mem : c ∈ (splitSign s).2) (other : c.isDigit = false) :
    readInt64? s = none := by
  simp only [readInt64?, readNat_eq_none mem other]

/-! ## Integers -/

/-- An integer is a sign, if it is negative, and the digits of its magnitude. -/
theorem toList_toString (i : ℤ) :
    (toString i).toList = (if i < 0 then ['-'] else []) ++ Nat.toDigits 10 i.natAbs := by
  cases i with
  | ofNat n =>
    have nonneg : ¬(Int.ofNat n < 0) := by simp
    rw [if_neg nonneg, List.nil_append]
    exact Nat.toList_repr
  | negSucc n =>
    rw [if_pos (Int.negSucc_lt_zero n)]
    show ("-" ++ Nat.repr (n + 1)).toList = _
    rw [String.toList_append, Nat.toList_repr]
    rfl

theorem splitSign_toDigits (i : ℤ) :
    splitSign ((if i < 0 then ['-'] else []) ++ Nat.toDigits 10 i.natAbs) =
      (decide (i < 0), Nat.toDigits 10 i.natAbs) := by
  by_cases negative : i < 0
  · simp [negative, splitSign_minus]
  · simp [negative, splitSign_digits fun _ => isDigit_of_mem_toDigits]

theorem signed_natAbs (i : ℤ) : (if decide (i < 0) = true then -(i.natAbs : ℤ) else i.natAbs) = i := by
  simp only [decide_eq_true_eq]
  split <;> omega

/-- The text of an integer reads back as the integer. -/
theorem readInt64_toString (i : Int64) : readInt64? (toString i.toInt).toList = some i := by
  have fits : fitsInt64 i.toInt = true := by
    simp only [fitsInt64, Bool.and_eq_true, decide_eq_true_eq]
    exact ⟨Int64.minValue_le_toInt i, Int64.toInt_le i⟩
  rw [toList_toString]
  simp only [readInt64?, splitSign_toDigits, readNat_toDigits, signed_natAbs, fits, if_true]
  exact congrArg some (Int64.ofInt_toInt i)

/-! ## Parts of a decimal -/

/-- Digits with a point among them and an exponent after them. -/
theorem readDecimal_point {whole decimals : List Char} (digits : ∀ c ∈ whole ++ decimals, c.isDigit = true)
    (present : whole ≠ []) (exponent : List Char) (stops : ∀ c ∈ exponent.head?, c.isDigit = false) :
    readDecimal? (whole ++ '.' :: (decimals ++ exponent)) =
      (readExponent? exponent).map fun e =>
        nearestFloat (digitsValue 0 (significant (whole ++ decimals))) (significant (whole ++ decimals)).length
          (e - decimals.length) := by
  obtain ⟨front, back⟩ := takeWhile_run (s := whole) (t := '.' :: (decimals ++ exponent))
    (fun c mem => digits c (List.mem_append_left _ mem)) (fun c same => by cases same; rfl)
  obtain ⟨frontDecimals, backDecimals⟩ := takeWhile_run (s := decimals)
    (fun c mem => digits c (List.mem_append_right _ mem)) stops
  simp only [readDecimal?, front, back, frontDecimals, backDecimals]
  rw [if_neg (by simp [present])]

/-- Digits without a point and an exponent after them. -/
theorem readDecimal_whole {whole : List Char} (digits : ∀ c ∈ whole, c.isDigit = true)
    (present : whole ≠ []) (exponent : List Char) (stops : ∀ c ∈ exponent.head?, c.isDigit = false ∧ c ≠ '.') :
    readDecimal? (whole ++ exponent) =
      (readExponent? exponent).map fun e =>
        nearestFloat (digitsValue 0 (significant whole)) (significant whole).length e := by
  obtain ⟨front, back⟩ := takeWhile_run digits fun c same => (stops c same).1
  simp only [readDecimal?, front, back]
  split
  · exact absurd rfl (stops '.' rfl).2
  · simp [present]

/-- Text that begins with neither a digit nor a point is no decimal. -/
theorem readDecimal_eq_none {c : Char} (noDigit : c.isDigit = false) (noPoint : c ≠ '.') (s : List Char) :
    readDecimal? (c :: s) = none := by
  have run : (c :: s).takeWhile Char.isDigit = [] := by simp [noDigit]
  have rest : (c :: s).dropWhile Char.isDigit = c :: s := by simp [noDigit]
  rw [readDecimal?, run, rest]
  split
  rename_i decimals left parts
  split at parts
  · rename_i same
    exact absurd (List.cons.inj same).1 noPoint
  · cases parts
    rfl

/-- The exponent is read as it is written. -/
theorem readExponent_text (e : ℤ) :
    readExponent? ('e' :: ((if e < 0 then ['-'] else []) ++ Nat.toDigits 10 e.natAbs)) = some e := by
  have letter : ('e' == 'e' || 'e' == 'E') = true := rfl
  simp only [readExponent?, letter, if_true, splitSign_toDigits, readNat_toDigits]
  exact congrArg some (signed_natAbs e)

end Folio.Decimal
