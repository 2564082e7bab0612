import Folio.Proofs.Decimal.Numeral
import Folio.Proofs.Decimal.Shortest

/-!
# Float literals read back

The text of a finite float in its literal form reads back as that float, bit for bit:
the layout only moves the point about, and the digits lie in the float's neighbourhood.

Main statement: `exists_numeral`.
-/

namespace Folio.Decimal

open Float.Model

variable {M : ℕ} {E : ℤ} {d : Digits}

/-! ## Moving the point -/

theorem decimalValue_shift (n k : ℕ) (e : ℤ) : decimalValue (n * 10 ^ k) (e - k) = decimalValue n e := by
  simp only [decimalValue]
  rw [zpow_sub₀ (by norm_num), zpow_natCast]
  push_cast
  field_simp

/-- The point of a float's digits is not far to the right. -/
theorem point_le (positive : 0 < d.digits) (upper : decimalValue d.digits d.exponent < 2 ^ (1024 : ℤ)) :
    ((Nat.toDigits 10 d.digits).length : ℤ) + d.exponent ≤ 400 := by
  by_contra far
  have long : 0 < (Nat.toDigits 10 d.digits).length := Nat.length_toDigits_pos
  have leading : (10 : ℚ) ^ (((Nat.toDigits 10 d.digits).length : ℤ) - 1) ≤ d.digits := by
    rw [show ((Nat.toDigits 10 d.digits).length : ℤ) - 1 =
      (((Nat.toDigits 10 d.digits).length - 1 : ℕ) : ℤ) by omega]
    exact_mod_cast le_of_digits positive
  have large : (10 : ℚ) ^ (400 : ℤ) ≤ decimalValue d.digits d.exponent := by
    calc
      (10 : ℚ) ^ (400 : ℤ)
      _ ≤ 10 ^ (((Nat.toDigits 10 d.digits).length : ℤ) - 1 + d.exponent) :=
        zpow_le_zpow_right₀ (by norm_num) (by omega)
      _ = 10 ^ (((Nat.toDigits 10 d.digits).length : ℤ) - 1) * 10 ^ d.exponent := zpow_add₀ (by norm_num) _ _
      _ ≤ decimalValue d.digits d.exponent := mul_le_mul_of_nonneg_right leading (by positivity)
  have apart : (2 : ℚ) ^ (1024 : ℤ) ≤ 10 ^ (400 : ℤ) := by
    calc
      (2 : ℚ) ^ (1024 : ℤ)
      _ ≤ 2 ^ (3 * 400 : ℤ) := zpow_le_zpow_right₀ (by norm_num) (by norm_num)
      _ = (2 ^ (3 : ℤ)) ^ (400 : ℤ) := zpow_mul _ _ _
      _ ≤ 10 ^ (400 : ℤ) := zpow_le_zpow_left₀ (by norm_num) (by norm_num) (by norm_num)
  exact (upper.trans_le apart).not_ge large

section Reading

variable (positive : 0 < d.digits) (canonical : Canonical M E) (range : E ≤ 971)
  (near : RoundsTo M (narrowBelow M E) (decimalValue d.digits d.exponent / 2 ^ E))

include positive range near

/-- Digits in the neighbourhood of a float, with `k` zeros more at their end. -/
theorem nearestFloat_digits {s : List Char} {e : ℤ} (k : ℕ) (digits : ∀ c ∈ s, c.isDigit = true)
    (value : digitsValue 0 s = d.digits * 10 ^ k) (place : e = d.exponent - k) (finite : s.length + e ≤ 400) :
    nearestFloat (digitsValue 0 (significant s)) (significant s).length e =
      .ofModel (.pack (.finite .positive M E canonical.positive)) := by
  have suffix : significant s <:+ s := List.dropWhile_suffix _
  have fits : digitsValue 0 (significant s) < 10 ^ (significant s).length := by
    simpa using digitsValue_lt (fun c mem => digits c (suffix.subset mem)) 0
  have short := suffix.length_le
  refine nearestFloat_eq ?_ fits (by omega) canonical range ?_ <;> rw [digitsValue_significant, value]
  · positivity
  · rw [place, decimalValue_shift]
    exact near

/-- Digits with a point among them and an exponent after them, in the neighbourhood of a float. -/
theorem readDecimal_pointed {whole decimals : List Char} {e : ℤ} (k : ℕ)
    (digits : ∀ c ∈ whole ++ decimals, c.isDigit = true) (present : whole ≠ []) (exponent : List Char)
    (stops : ∀ c ∈ exponent.head?, c.isDigit = false) (read : readExponent? exponent = some e)
    (value : digitsValue 0 (whole ++ decimals) = d.digits * 10 ^ k) (place : e - decimals.length = d.exponent - k)
    (finite : whole.length + e ≤ 400) :
    readDecimal? (whole ++ '.' :: (decimals ++ exponent)) =
      some (.ofModel (.pack (.finite .positive M E canonical.positive))) := by
  rw [readDecimal_point digits present exponent stops, read]
  refine congrArg some (nearestFloat_digits positive canonical range near k digits value place ?_)
  rw [List.length_append]
  omega

/-- The point comes first: zeros fill the places up to the digits. -/
theorem readDecimal_pointFirst {shown : List Char} (digits : ∀ c ∈ shown, c.isDigit = true)
    (value : digitsValue 0 shown = d.digits) (small : shown.length + d.exponent ≤ 0) :
    readDecimal? ('0' :: '.' :: List.replicate (-(shown.length + d.exponent)).toNat '0' ++ shown) =
      some (.ofModel (.pack (.finite .positive M E canonical.positive))) := by
  have all : ∀ c ∈ ['0'] ++ (List.replicate (-(shown.length + d.exponent)).toNat '0' ++ shown), c.isDigit = true := by
    intro c mem
    simp only [List.mem_append, List.mem_singleton] at mem
    obtain rfl | zero | mem := mem
    · rfl
    · exact isDigit_of_mem_zeros zero
    · exact digits c mem
  have read := readDecimal_pointed positive canonical range near 0 all (by simp) [] (by simp) rfl
  rw [List.append_nil] at read
  refine read ?_ ?_ (by simp)
  · rw [digitsValue_append, digitsValue_append, digitsValue_zeros, show digitsValue 0 ['0'] = 0 from rfl]
    simpa using value
  · rw [List.length_append, List.length_replicate]
    push_cast
    omega

/-- The point comes last, after zeros that the digits do not reach. -/
theorem readDecimal_pointLast {shown : List Char} (digits : ∀ c ∈ shown, c.isDigit = true) (long : shown ≠ [])
    (value : digitsValue 0 shown = d.digits) (bound : shown.length + d.exponent ≤ 400) (whole : 0 ≤ d.exponent) :
    readDecimal? (shown ++ List.replicate d.exponent.toNat '0' ++ ['.', '0']) =
      some (.ofModel (.pack (.finite .positive M E canonical.positive))) := by
  have all : ∀ c ∈ shown ++ List.replicate d.exponent.toNat '0' ++ ['0'], c.isDigit = true := by
    intro c mem
    simp only [List.mem_append, List.mem_singleton] at mem
    obtain (mem | zero) | rfl := mem
    · exact digits c mem
    · exact isDigit_of_mem_zeros zero
    · rfl
  refine readDecimal_pointed positive canonical range near (d.exponent.toNat + 1) all (by simp [long]) []
    (by simp) rfl ?_ ?_ ?_
  · rw [digitsValue_append, digitsValue_append, value, digitsValue_zeros]
    show 10 * (10 ^ d.exponent.toNat * d.digits) + 0 = _
    ring
  · rw [List.length_singleton]
    push_cast
    omega
  · rw [List.length_append, List.length_replicate]
    push_cast
    omega

/-- The point stands among the digits. -/
theorem readDecimal_pointAmong {shown : List Char} (digits : ∀ c ∈ shown, c.isDigit = true) (long : shown ≠ [])
    (value : digitsValue 0 shown = d.digits) (bound : shown.length + d.exponent ≤ 400) (present : 0 < shown.length + d.exponent)
    (reached : d.exponent < 0) :
    readDecimal? (shown.take (shown.length + d.exponent).toNat ++ '.' :: shown.drop (shown.length + d.exponent).toNat) =
      some (.ofModel (.pack (.finite .positive M E canonical.positive))) := by
  have whole : shown.take (shown.length + d.exponent).toNat ≠ [] := by
    simp only [ne_eq, List.take_eq_nil_iff, not_or]
    exact ⟨by omega, long⟩
  have all : ∀ c ∈ shown.take (shown.length + d.exponent).toNat ++ shown.drop (shown.length + d.exponent).toNat,
      c.isDigit = true := by
    rwa [List.take_append_drop]
  have read := readDecimal_pointed positive canonical range near 0 all whole [] (by simp) rfl
  rw [List.append_nil] at read
  refine read ?_ ?_ ?_
  · rw [List.take_append_drop, value, pow_zero, mul_one]
  · rw [List.length_drop]
    omega
  · rw [List.length_take]
    omega

theorem readDecimal_positionalText :
    readDecimal? (Layout.literal.positionalText d) =
      some (.ofModel (.pack (.finite .positive M E canonical.positive))) := by
  have bound := point_le positive (bounds_of_near canonical range near).2
  have digits : ∀ c ∈ Nat.toDigits 10 d.digits, c.isDigit = true := fun _ => isDigit_of_mem_toDigits
  have value := digitsValue_toDigits d.digits
  have long : Nat.toDigits 10 d.digits ≠ [] := Nat.toDigits_ne_nil
  simp only [Layout.positionalText, Layout.literal, if_true]
  split_ifs with small whole
  · exact readDecimal_pointFirst positive canonical range near digits value small
  · exact readDecimal_pointLast positive canonical range near digits long value bound (by omega)
  · exact readDecimal_pointAmong positive canonical range near digits long value bound (by omega) (by omega)

theorem readDecimal_exponentText :
    readDecimal? (exponentText d) =
      some (.ofModel (.pack (.finite .positive M E canonical.positive))) := by
  have bound := point_le positive (bounds_of_near canonical range near).2
  have digits : ∀ c ∈ Nat.toDigits 10 d.digits, c.isDigit = true := fun _ => isDigit_of_mem_toDigits
  have value := digitsValue_toDigits d.digits
  have long : (Nat.toDigits 10 d.digits) ≠ [] := Nat.toDigits_ne_nil
  simp only [exponentText]
  generalize Nat.toDigits 10 d.digits = shown at bound digits value long
  obtain ⟨c, more, rfl⟩ := List.exists_cons_of_ne_nil long
  simp only [List.length_cons] at bound
  have exponent := readExponent_text ((c :: more).length + d.exponent - 1)
  have letter : ∀ rest : List Char, ∀ c ∈ ('e' :: rest).head?, c.isDigit = false ∧ c ≠ '.' := by
    intro rest c same
    obtain rfl := Option.some_inj.1 same
    decide
  simp only [List.take_succ_cons, List.take_zero, List.drop_succ_cons, List.drop_zero, List.length_cons,
    List.append_assoc, List.cons_append, List.nil_append] at exponent ⊢
  by_cases one : more.length = 0
  · -- One digit has no point.
    obtain rfl := List.length_eq_zero_iff.1 one
    rw [if_pos (by simp), List.nil_append]
    refine (readDecimal_whole digits (by simp) _ (letter _)).trans ?_
    rw [exponent]
    refine congrArg some ?_
    refine nearestFloat_digits positive canonical range near 0 digits ?_ ?_ ?_
    · simpa using value
    · simp
    · simp only [List.length_cons]
      omega
  · -- The point stands after the first digit.
    rw [if_neg (by omega), List.cons_append]
    have all : ∀ d ∈ [c] ++ more, d.isDigit = true := digits
    refine readDecimal_pointed positive canonical range near 0 all (by simp) _
      (fun c same => (letter _ c same).1) exponent ?_ ?_ ?_
    · simpa using value
    · push_cast
      omega
    · rw [List.length_singleton]
      push_cast
      omega

/-- Digits in the neighbourhood of a float, as they are laid out for a literal. -/
theorem readDecimal_digitsText :
    readDecimal? (Layout.literal.digitsText d) =
      some (.ofModel (.pack (.finite .positive M E canonical.positive))) := by
  unfold Layout.digitsText
  simp only [Layout.literal]
  split
  · exact readDecimal_positionalText positive canonical range near
  · exact readDecimal_exponentText positive canonical range near

end Reading

/-! ## What the text is made of -/

/-- Text that starts with a digit, holds a point or an exponent, and nothing besides. -/
structure Numeral (s : List Char) : Prop where
  starts : ∃ c rest, s = c :: rest ∧ c.isDigit = true
  marked : ∃ c ∈ s, c.isDigit = false
  plain : ∀ c ∈ s, c.isDigit = true ∨ c = '.' ∨ c = 'e' ∨ c = '-'

theorem numeral_positionalText (d : Digits) : Numeral (Layout.literal.positionalText d) := by
  have digits : ∀ c ∈ Nat.toDigits 10 d.digits, c.isDigit = true := fun _ => isDigit_of_mem_toDigits
  have long : (Nat.toDigits 10 d.digits) ≠ [] := Nat.toDigits_ne_nil
  simp only [Layout.positionalText, Layout.literal, if_true]
  generalize Nat.toDigits 10 d.digits = shown at digits long
  obtain ⟨first, more, rfl⟩ := List.exists_cons_of_ne_nil long
  have leading := digits first (by simp)
  split_ifs with small whole
  · refine ⟨⟨'0', _, rfl, rfl⟩, ⟨'.', by simp, rfl⟩, fun c mem => ?_⟩
    simp only [List.cons_append, List.mem_cons, List.mem_append] at mem
    obtain rfl | rfl | zero | mem := mem
    · exact .inl rfl
    · exact .inr (.inl rfl)
    · exact .inl (isDigit_of_mem_zeros zero)
    · exact .inl (digits c (List.mem_cons.2 mem))
  · refine ⟨⟨first, _, rfl, leading⟩, ⟨'.', by simp, rfl⟩, fun c mem => ?_⟩
    simp only [List.mem_append, List.mem_cons, List.not_mem_nil, or_false] at mem
    obtain (mem | zero) | rfl | rfl := mem
    · exact .inl (digits c (List.mem_cons.2 mem))
    · exact .inl (isDigit_of_mem_zeros zero)
    · exact .inr (.inl rfl)
    · exact .inl rfl
  · obtain ⟨n, place⟩ : ∃ n, ((first :: more).length + d.exponent).toNat = n + 1 :=
      ⟨_, (Nat.succ_pred_eq_of_pos (by omega)).symm⟩
    rw [place]
    refine ⟨⟨first, _, rfl, leading⟩, ⟨'.', by simp, rfl⟩, fun c mem => ?_⟩
    simp only [List.mem_append, List.mem_cons] at mem
    obtain mem | rfl | mem := mem
    · exact .inl (digits c (List.mem_of_mem_take mem))
    · exact .inr (.inl rfl)
    · exact .inl (digits c (List.mem_of_mem_drop mem))

theorem numeral_exponentText (d : Digits) : Numeral (exponentText d) := by
  have digits : ∀ c ∈ Nat.toDigits 10 d.digits, c.isDigit = true := fun _ => isDigit_of_mem_toDigits
  have long : (Nat.toDigits 10 d.digits) ≠ [] := Nat.toDigits_ne_nil
  simp only [exponentText]
  generalize Nat.toDigits 10 d.digits = shown at digits long
  obtain ⟨first, more, rfl⟩ := List.exists_cons_of_ne_nil long
  refine ⟨⟨first, _, rfl, digits first (by simp)⟩, ⟨'e', by simp, rfl⟩, fun c mem => ?_⟩
  simp only [List.take_succ_cons, List.take_zero, List.drop_succ_cons, List.drop_zero, List.mem_append,
    List.mem_cons, List.not_mem_nil, or_false] at mem
  obtain ((rfl | fraction) | rfl | sign) | mem := mem
  · exact .inl (digits _ (by simp))
  · split at fraction
    · contradiction
    · obtain rfl | mem := List.mem_cons.1 fraction
      · exact .inr (.inl rfl)
      · exact .inl (digits c (List.mem_cons_of_mem _ mem))
  · exact .inr (.inr (.inl rfl))
  · split at sign
    · exact .inr (.inr (.inr (List.mem_singleton.1 sign)))
    · contradiction
  · exact .inl (isDigit_of_mem_toDigits mem)

theorem numeral_digitsText (d : Digits) : Numeral (Layout.literal.digitsText d) := by
  unfold Layout.digitsText
  simp only [Layout.literal]
  split
  · exact numeral_positionalText d
  · exact numeral_exponentText d

/-! ## Floats -/

theorem neg_pack {sign : UnpackedFloat.Sign} (canonical : Canonical M E) (range : E ≤ 971) :
    -(Float.ofModel (.pack (.finite sign M E canonical.positive))) =
      Float.ofModel (.pack (.finite (-sign) M E canonical.positive)) := by
  show Float.ofModel (.pack (UnpackedFloat.neg (Float.Model.pack _).unpack)) = _
  rw [unpack_pack canonical range]
  rfl

/-- The literal text of a finite float is a numeral, after a minus for a negative one, and
the numeral reads back as the magnitude. -/
theorem exists_numeral {x : Float} (number : IsNumber x) (finite : isInfinite x = false) :
    ∃ (negative : Bool) (body : List Char) (magnitude : Float),
      (Layout.literal.write x).toList = (if negative then ['-'] else []) ++ body ∧ Numeral body ∧
        readDecimal? body = some magnitude ∧ (if negative then -magnitude else magnitude) = x := by
  unfold IsNumber at number
  unfold isInfinite at finite
  rw [reading_eq] at finite
  have packed := pack_unpack x
  unfold Layout.write
  rw [reading_eq]
  cases unpacked : x.toModel.unpack with
  | notANumber => contradiction
  | infinity sign => simp [unpacked, Reading.ofUnpacked] at finite
  | zero sign =>
    rw [unpacked] at packed
    -- A zero has no neighbourhood, but its text is closed.
    refine ⟨sign == .negative, Layout.literal.digitsText ⟨0, 0⟩, 0.0, String.toList_ofList,
      numeral_digitsText _, rfl, ?_⟩
    rw [← packed]
    cases sign <;> rfl
  | finite sign M E positive =>
    rw [unpacked] at packed
    obtain ⟨canonical, range⟩ := canonical_of_unpack unpacked
    have near := shortest_roundsTo (E := E) positive rfl
    have some : 0 < (Binary.mk M E (narrowBelow M E)).shortest.digits := by
      obtain ⟨lower, _⟩ := bounds_of_near canonical range near
      by_contra none
      rw [Nat.eq_zero_of_not_pos none, decimalValue, Nat.cast_zero, zero_mul] at lower
      exact lower.not_gt (by positivity)
    refine ⟨sign == .negative, _, _, String.toList_ofList, numeral_digitsText _,
      readDecimal_digitsText some canonical range near, ?_⟩
    rw [← packed]
    cases sign with
    | positive => rfl
    | negative => exact neg_pack canonical range

end Folio.Decimal
