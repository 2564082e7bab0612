import Folio.Builtin.Format
import Folio.Proofs.Decimal.Whole

/-!
# Whole numbers by a pattern of zeros

`format` turns an integer into a float before it sets out the digits.  So what is shown is the nearest
whole number that is a float: the integer itself up to fifty-three bits, and after that the integer
rounded to a multiple of a power of two.  Sign, width, separator and places are those of the pattern, unless
it asks for more places than a number can be written with.

Main statement: `format_whole`.
-/

namespace Folio.Builtin

open Decimal (Binary Reading maxPlaces isDigit_of_mem_toDigits isDigit_of_mem_zeros isNegative_of_reading
  magnitudeText_of_whole gap gap_dvd_of_le nearestWhole nearestWhole_eq_self_iff reading_ofInt)
open Text (takeWhile_run)

/-! ## Patterns of zeros -/

def zeroPattern (width : ℕ) (places : Option ℕ) : List Char :=
  List.replicate width '0' ++ places.elim [] fun places => '.' :: List.replicate places '0'

variable {width n : ℕ} {places : Option ℕ}

theorem parse_zeroPattern (present : 0 < width + places.getD 0) :
    NumberPattern.parse? (zeroPattern width places) = some ⟨width, places.getD 0⟩ := by
  have zeros : ∀ c ∈ List.replicate width '0', (c != '.') = true := by
    intro c mem
    rw [List.eq_of_mem_replicate mem]
    rfl
  have stops : ∀ c ∈ (places.elim [] fun places => '.' :: List.replicate places '0').head?, (c != '.') = false := by
    cases places with
    | none => simp
    | some places => simp
  obtain ⟨front, back⟩ := takeWhile_run zeros stops
  have filled : (zeroPattern width places).isEmpty = false := by
    cases places with
    | none =>
      have : width ≠ 0 := by simpa using present.ne'
      simp [zeroPattern, this]
    | some places => simp [zeroPattern]
  rw [NumberPattern.parse?, filled]
  unfold zeroPattern
  rw [front, back]
  cases places with
  | none => simp
  | some places => simp

/-! ## What a pattern shows -/

/-- A whole number by a pattern: a sign, at least so many digits, and after the separator of the
locale so many zeros. -/
def wholeText (locale : Locale) (negative : Bool) (n width places : ℕ) : List Char :=
  (if negative then ['-'] else []) ++ (Nat.toDigits 10 n).leftpad width '0' ++
    if places = 0 then [] else locale.decimalSeparator :: List.replicate places '0'

theorem exists_digit_ne_zero (positive : 0 < n) : ∃ c ∈ Nat.toDigits 10 n, c ≠ '0' := by
  by_contra none
  push Not at none
  have value := Decimal.digitsValue_toDigits n
  rw [List.eq_replicate_of_mem none, Decimal.digitsValue_zeros] at value
  omega

/-- Digits have no point that the separator of a locale would replace. -/
theorem withSeparator_digits (locale : Locale) {s : List Char} (digits : ∀ c ∈ s, c.isDigit = true) :
    locale.withSeparator s = s := by
  have same : ∀ c ∈ s, (if c = '.' then locale.decimalSeparator else c) = id c := by
    intro c mem
    refine if_neg ?_
    rintro rfl
    exact absurd (digits _ mem) (by decide)
  rw [Locale.withSeparator, List.map_congr_left same, List.map_id]

/-- A float that is a whole number is shown as that number.  The number that rounds to zero has no sign,
and no other one is without. -/
theorem text_whole (locale : Locale) {x : Float} {negative : Bool} {b : Binary} (reads : Reading.ofFloat x = .finite negative b)
    (value : (b.mantissa * 2 ^ b.exponent : ℚ) = n) (signed : negative = true → 0 < n) (width places : ℕ) :
    NumberPattern.text ⟨width, places⟩ locale x = String.ofList (wholeText locale negative n width places) := by
  have text := magnitudeText_of_whole reads value places
  have digits : ∀ c ∈ Nat.toDigits 10 n, c.isDigit = true := fun _ => isDigit_of_mem_toDigits
  have zeros : ∀ c ∈ List.replicate places '0', c.isDigit = true := fun _ => isDigit_of_mem_zeros
  have front : (Decimal.magnitudeText x places).takeWhile (· != '.') = Nat.toDigits 10 n := by
    rw [text]
    refine (takeWhile_run (fun c mem => ?_) fun c first => ?_).1
    · have digit := digits c mem
      rw [bne_iff_ne]
      rintro rfl
      contradiction
    · split_ifs at first
      · contradiction
      · cases first
        rfl
  have shows : (Decimal.isNegative x && (Decimal.magnitudeText x places).any fun c => c.isDigit && c != '0') = negative := by
    rw [isNegative_of_reading reads]
    cases negative with
    | false => rfl
    | true =>
      obtain ⟨c, mem, other⟩ := exists_digit_ne_zero (signed rfl)
      rw [Bool.true_and, text, List.any_append, Bool.or_eq_true]
      exact .inl (List.any_eq_true.2 ⟨c, mem, by simp [digits c mem, other]⟩)
  have separated : locale.withSeparator (Decimal.magnitudeText x places) =
      Nat.toDigits 10 n ++ if places = 0 then [] else locale.decimalSeparator :: List.replicate places '0' := by
    rw [text, Locale.withSeparator, List.map_append, ← Locale.withSeparator, withSeparator_digits locale digits]
    split_ifs
    · rfl
    · rw [List.map_cons, if_pos rfl, ← Locale.withSeparator, withSeparator_digits locale zeros]
  simp only [NumberPattern.text, front, shows, separated, wholeText, List.leftpad, List.append_assoc]

theorem nearestWhole_pos (positive : 0 < n) : 0 < nearestWhole n := by
  have below : gap n ≤ n :=
    (Nat.pow_le_pow_right (by norm_num) (Nat.sub_le _ _)).trans (Nat.log2_self_le positive.ne')
  have quotient : 0 < n / gap n := Nat.div_pos below (Decimal.gap_pos n)
  exact Nat.mul_pos (quotient.trans_le (Decimal.roundDiv_bounds n (gap n)).1) (Decimal.gap_pos n)

/-- By a pattern of zeros a number is written if the places are not too many. -/
theorem formatNumber_zeroPattern (locale : Locale) (x : Float) (present : 0 < width + places.getD 0) :
    formatNumber locale (String.ofList (zeroPattern width places)) x =
      if maxPlaces < places.getD 0 then .error (.call (.tooManyPlaces (places.getD 0)))
      else .ok (NumberPattern.text ⟨width, places.getD 0⟩ locale x) := by
  rw [formatNumber, String.toList_ofList, parse_zeroPattern present]
  rfl

/-- What an integer is converted to is set out by the pattern. -/
theorem text_int (locale : Locale) (i : Int64) (width places : ℕ) :
    NumberPattern.text ⟨width, places⟩ locale (Float.ofInt i.toInt) =
      String.ofList (wholeText locale (i.toInt < 0) (nearestWhole i.toInt.natAbs) width places) := by
  have bounded : i.toInt.natAbs < 2 ^ 64 := by
    have lower := i.minValue_le_toInt
    have upper := i.toInt_le
    have least : Int64.minValue.toInt = -2 ^ 63 := by decide
    have most : Int64.maxValue.toInt = 2 ^ 63 - 1 := by decide
    omega
  obtain ⟨b, reads, value⟩ := reading_ofInt bounded
  refine text_whole locale reads value (fun negative => nearestWhole_pos ?_) width places
  have := of_decide_eq_true negative
  omega

/-! ## Main statement -/

/-- By a pattern of zeros with no more than 65535 places an integer is shown as the nearest whole number
that is a float: a minus if the integer is negative, the digits filled up to the width, and the places.
That is the integer itself if it is a multiple of the gap between such numbers, as all of fifty-three bits
are, and only then.  By a pattern with more places nothing is shown. -/
theorem format_whole (locale : Locale) (i : Int64) (width : ℕ) (places : Option ℕ) (present : 0 < width + places.getD 0) :
    (places.getD 0 ≤ maxPlaces → format locale [.int i, .str (String.ofList (zeroPattern width places))] =
        .ok (.str (String.ofList
          (wholeText locale (i.toInt < 0) (nearestWhole i.toInt.natAbs) width (places.getD 0))))) ∧
      (maxPlaces < places.getD 0 → format locale [.int i, .str (String.ofList (zeroPattern width places))] =
        .error (.call (.tooManyPlaces (places.getD 0)))) ∧
      (nearestWhole i.toInt.natAbs = i.toInt.natAbs ↔ gap i.toInt.natAbs ∣ i.toInt.natAbs) ∧
      (i.toInt.natAbs ≤ 2 ^ 53 → gap i.toInt.natAbs ∣ i.toInt.natAbs) := by
  have shown : format locale [.int i, .str (String.ofList (zeroPattern width places))] =
      (formatNumber locale (String.ofList (zeroPattern width places)) (Float.ofInt i.toInt)).map .str := rfl
  rw [shown, formatNumber_zeroPattern locale _ present]
  refine ⟨fun few => ?_, fun many => ?_, nearestWhole_eq_self_iff, gap_dvd_of_le⟩
  · rw [if_neg (Nat.not_lt.2 few), text_int]
    rfl
  · rw [if_pos many]
    rfl

/-- A negative number filled up in a locale with a comma. -/
theorem format_whole_comma :
    format ⟨"de-DE"⟩ [.int (-42), .str "000.00"] = .ok (.str "-042,00") ∧ nearestWhole 42 = 42 := by
  obtain ⟨shown, -, same, short⟩ := format_whole ⟨"de-DE"⟩ (-42) 3 (some 2) (by decide)
  replace shown := shown (by decide)
  have unit : nearestWhole 42 = 42 := same.2 (short (by decide))
  have pattern : String.ofList (zeroPattern 3 (some 2)) = "000.00" := by decide
  have text : String.ofList (wholeText ⟨"de-DE"⟩ true 42 3 2) = "-042,00" := by decide +kernel
  rw [pattern, show (-42 : Int64).toInt.natAbs = 42 by decide, unit] at shown
  exact ⟨shown.trans (congrArg (Except.ok ∘ Value.str) text), unit⟩

/-- The first number that needs more than fifty-three bits is shown as its neighbour. -/
theorem long_integer_rounded :
    format ⟨""⟩ [.int 9007199254740993, .str "0"] = .ok (.str "9007199254740992") ∧
      String.ofList (wholeText ⟨""⟩ false 9007199254740993 1 0) = "9007199254740993" := by
  refine ⟨?_, by decide +kernel⟩
  have shown := @formatNumber_zeroPattern 1 none ⟨""⟩ (Float.ofInt (9007199254740993 : Int64).toInt) (by decide)
  have pattern : String.ofList (zeroPattern 1 none) = "0" := by decide
  have rounded : nearestWhole (9007199254740993 : Int64).toInt.natAbs = 9007199254740992 := by decide +kernel
  have text : String.ofList (wholeText ⟨""⟩ false 9007199254740992 1 0) = "9007199254740992" := by decide +kernel
  rw [pattern, if_neg (by decide), text_int, rounded] at shown
  show (formatNumber ⟨""⟩ "0" (Float.ofInt (9007199254740993 : Int64).toInt)).map Value.str = _
  rw [shown]
  exact congrArg (Except.ok ∘ Value.str) text

end Folio.Builtin
