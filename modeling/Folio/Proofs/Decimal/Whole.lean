import Folio.Decimal.Binary
import Folio.Proofs.Decimal.RoundTrip

/-!
# Whole numbers as floats

A whole number of up to fifty-three bits is a float.  Of a longer one the float keeps fifty-three
bits: it is the nearest multiple of the power of two that has so many, and of two the one with an even
mantissa.  The places of such a float are the digits of that multiple and zeros.

Main statements: `reading_ofInt`, `magnitudeText_of_whole`.
-/

namespace Folio.Decimal

open Float.Model
open Float.Model.UnpackedFloat (Sign)

/-! ## Rounding to a multiple -/

theorem roundDiv_bounds (n d : ℕ) : n / d ≤ roundDiv n d ∧ roundDiv n d ≤ n / d + 1 := by
  unfold roundDiv
  dsimp only
  split_ifs <;> omega

theorem roundDiv_mul (n : ℕ) {d : ℕ} (positive : 0 < d) : roundDiv (n * d) d = n := by
  unfold roundDiv
  dsimp only
  rw [Nat.mul_mod_left, Nat.mul_div_cancel n positive, if_pos (by omega)]

theorem roundsTo_of_lt {M : ℕ} {u : ℚ} (above : M - 1 / 2 < u) (below : u < M + 1 / 2) : RoundsTo M false u :=
  ⟨by simpa using above.le, below.le, fun _ => ⟨by simpa using above, below⟩⟩

theorem roundsTo_of_even {M : ℕ} {u : ℚ} (even : M % 2 = 0) (above : M - 1 / 2 ≤ u) (below : u ≤ M + 1 / 2) :
    RoundsTo M false u :=
  ⟨by simpa using above, below, fun odd => by omega⟩

/-- The rounded quotient is the whole number to which the quotient rounds. -/
theorem roundsTo_roundDiv (n : ℕ) {d : ℕ} (positive : 0 < d) : RoundsTo (roundDiv n d) false (n / d : ℚ) := by
  have positiveCast : (0 : ℚ) < d := by exact_mod_cast positive
  have whole : (n : ℚ) = d * (n / d : ℕ) + (n % d : ℕ) := by exact_mod_cast (Nat.div_add_mod n d).symm
  have quotient : (n / d : ℚ) = (n / d : ℕ) + (n % d : ℕ) / d := by
    field_simp
    linarith
  have some : (0 : ℚ) ≤ (n % d : ℕ) / d := by positivity
  have part : ((n % d : ℕ) : ℚ) / d < 1 := by
    rw [div_lt_one positiveCast]
    exact_mod_cast Nat.mod_lt n positive
  rw [quotient]
  unfold roundDiv
  dsimp only
  generalize n / d = q
  -- Below one half it is the number below, above it the next one, and at one half the even one of both.
  split_ifs with low high even
  · have less : ((n % d : ℕ) : ℚ) / d < 1 / 2 := by
      have : (2 : ℚ) * (n % d : ℕ) < d := by exact_mod_cast low
      rw [div_lt_iff₀ positiveCast]
      linarith
    exact roundsTo_of_lt (by linarith) (by linarith)
  · have more : (1 : ℚ) / 2 < ((n % d : ℕ) : ℚ) / d := by
      have : (d : ℚ) < 2 * (n % d : ℕ) := by exact_mod_cast high
      rw [lt_div_iff₀ positiveCast]
      linarith
    exact roundsTo_of_lt (by push_cast; linarith) (by push_cast; linarith)
  all_goals
    have half : ((n % d : ℕ) : ℚ) / d = 1 / 2 := by
      have : (2 : ℚ) * (n % d : ℕ) = d := by exact_mod_cast (by omega : 2 * (n % d) = d)
      rw [div_eq_iff positiveCast.ne']
      linarith
    rw [beq_iff_eq] at even
  · exact roundsTo_of_even even (by linarith) (by linarith)
  · exact roundsTo_of_even (by omega) (by push_cast; linarith) (by push_cast; linarith)

/-! ## The nearest float -/

/-- The distance of the whole numbers of this length that are floats. -/
def gap (n : ℕ) : ℕ :=
  2 ^ (n.log2 - 52)

/-- The nearest of the whole numbers of this length that are floats; of two the one that is an even
multiple of the gap. -/
def nearestWhole (n : ℕ) : ℕ :=
  roundDiv n (gap n) * gap n

theorem gap_pos (n : ℕ) : 0 < gap n :=
  Nat.two_pow_pos _

/-- The multiples of the gap stay as they are, and no other numbers do. -/
theorem nearestWhole_eq_self_iff {n : ℕ} : nearestWhole n = n ↔ gap n ∣ n := by
  constructor
  · intro same
    exact ⟨roundDiv n (gap n), by rw [Nat.mul_comm]; exact same.symm⟩
  · intro multiple
    have rounded := roundDiv_mul (n / gap n) (gap_pos n)
    rw [Nat.div_mul_cancel multiple] at rounded
    rw [nearestWhole, rounded, Nat.div_mul_cancel multiple]

variable {n : ℕ}

/-- The float of a short number is the number. -/
theorem gap_of_short (short : n < 2 ^ 53) : gap n = 1 := by
  have bits := log2_le_of_lt short
  rw [gap, Nat.sub_eq_zero_of_le bits, pow_zero]

theorem gap_dvd_of_le (short : n ≤ 2 ^ 53) : gap n ∣ n := by
  obtain rfl | shorter := short.eq_or_lt
  · decide +kernel
  · rw [gap_of_short shorter]
    exact one_dvd n

/-- What rounds up to the next power of two rounds to it as seen from there. -/
theorem RoundsTo.carry {u : ℚ} (near : RoundsTo (2 ^ 53) false u) : RoundsTo (2 ^ 52) true (u / 2) := by
  obtain ⟨above, below, -⟩ := near
  refine ⟨?_, ?_, fun odd => absurd odd (by norm_num)⟩
  · simp only [Bool.false_eq_true, if_false, if_true] at above ⊢
    push_cast at above ⊢
    linarith
  · push_cast at below ⊢
    linarith

/-- At a power of two, nothing below it has been rounded up. -/
theorem RoundsTo.narrow_of_le {u : ℚ} (near : RoundsTo (2 ^ 52) false u) (atLeast : 2 ^ 52 ≤ u) :
    RoundsTo (2 ^ 52) true u := by
  refine ⟨?_, near.below, fun odd => absurd odd (by norm_num)⟩
  push_cast
  simp only [if_true]
  linarith

/-- Between long numbers the gap is a power of two that leaves fifty-three bits. -/
theorem exists_gap (long : 2 ^ 53 ≤ n) (bounded : n < 2 ^ 64) :
    ∃ k < 12, gap n = 2 ^ k ∧ 2 ^ 52 ≤ n / gap n ∧ n / gap n < 2 ^ 53 := by
  have nonzero : n ≠ 0 := by omega
  obtain ⟨k, bits⟩ : ∃ k, n.log2 = 52 + k := Nat.exists_eq_add_of_le (by
    have := (Nat.le_log2 nonzero).2 long
    omega)
  have few : k < 12 := by
    have := (Nat.log2_lt nonzero).2 bounded
    omega
  have spaced : gap n = 2 ^ k := by rw [gap, bits, Nat.add_sub_cancel_left]
  refine ⟨k, few, spaced, ?_, ?_⟩
  · rw [spaced, Nat.le_div_iff_mul_le (by positivity), ← Nat.pow_add, ← bits]
    exact Nat.log2_self_le nonzero
  · rw [spaced, Nat.div_lt_iff_lt_mul (by positivity), ← Nat.pow_add, show 53 + k = n.log2 + 1 by omega]
    exact Nat.lt_log2_self

/-- The mantissa and exponent of a long number: fifty-three bits, or one place further where rounding
carries over. -/
theorem exists_canonical_long (long : 2 ^ 53 ≤ n) (bounded : n < 2 ^ 64) :
    ∃ M E, Canonical M E ∧ E ≤ 971 ∧ RoundsTo M (narrowBelow M E) (n / 2 ^ E : ℚ) ∧ (M * 2 ^ E : ℚ) = nearestWhole n := by
  obtain ⟨k, few, spaced, bottom, top⟩ := exists_gap long bounded
  have near := roundsTo_roundDiv n (gap_pos n)
  obtain ⟨lower, upper⟩ := roundDiv_bounds n (gap n)
  have value : (nearestWhole n : ℚ) = roundDiv n (gap n) * 2 ^ (k : ℤ) := by
    rw [nearestWhole, spaced]
    push_cast
    rw [zpow_natCast]
  have unit : ((gap n : ℕ) : ℚ) = 2 ^ (k : ℤ) := by
    rw [spaced]
    push_cast
    rw [zpow_natCast]
  have atLeast : (2 : ℚ) ^ 52 ≤ n / 2 ^ (k : ℤ) := by
    rw [← unit, le_div_iff₀ (by exact_mod_cast gap_pos n)]
    exact_mod_cast (Nat.le_div_iff_mul_le (gap_pos n)).1 bottom
  rw [unit] at near
  by_cases carried : roundDiv n (gap n) = 2 ^ 53
  · refine ⟨2 ^ 52, k + 1, ⟨by norm_num, by norm_num, by omega, .inl le_rfl⟩, by omega, ?_, ?_⟩
    · have half : (n / 2 ^ ((k : ℤ) + 1) : ℚ) = n / 2 ^ (k : ℤ) / 2 := by
        rw [zpow_add₀ (by norm_num), zpow_one, div_div]
      have narrow : narrowBelow (2 ^ 52) (k + 1) = true := by simp [narrowBelow]
      rw [carried] at near
      rw [half, narrow]
      exact near.carry
    · rw [value, carried, zpow_add₀ (by norm_num)]
      push_cast
      ring
  · refine ⟨roundDiv n (gap n), k, ⟨by omega, by omega, by omega, .inl (by omega)⟩, by omega, ?_, value.symm⟩
    cases narrow : narrowBelow (roundDiv n (gap n)) k with
    | false => exact near
    | true =>
      have power : roundDiv n (gap n) = 2 ^ 52 := by
        simp only [narrowBelow, Bool.and_eq_true, beq_iff_eq] at narrow
        exact narrow.1
      rw [power] at near ⊢
      exact near.narrow_of_le atLeast

/-- Every positive whole number rounds to a float, the nearest. -/
theorem exists_canonical (positive : 0 < n) (bounded : n < 2 ^ 64) :
    ∃ M E, Canonical M E ∧ E ≤ 971 ∧ RoundsTo M (narrowBelow M E) (n / 2 ^ E : ℚ) ∧ (M * 2 ^ E : ℚ) = nearestWhole n := by
  by_cases short : n < 2 ^ 53
  · obtain ⟨full, narrow⟩ := fullMantissa_bounds positive short
    have bits := log2_le_of_lt short
    have value := fullMantissa_value short 0
    rw [add_zero, zpow_zero, mul_one] at value
    have same : nearestWhole n = n := nearestWhole_eq_self_iff.2 (gap_dvd_of_le short.le)
    refine ⟨fullMantissa n, n.log2 - 52, ⟨by omega, narrow, by omega, .inl full⟩, by omega, ?_, by rw [value, same]⟩
    have self : (n / 2 ^ ((n.log2 : ℤ) - 52) : ℚ) = fullMantissa n := by
      rw [← value]
      field_simp
    rw [self]
    exact .self _ _
  · exact exists_canonical_long (by omega) bounded

/-! ## Converted integers -/

theorem isNegative_of_reading {x : Float} {negative : Bool} {b : Binary} (reads : Reading.ofFloat x = .finite negative b) :
    isNegative x = negative := by
  unfold Reading.ofFloat at reads
  dsimp only at reads
  split_ifs at reads
  · cases reads
    rfl
  · cases reads
    rfl

/-- A float reads as what it was packed from. -/
theorem reading_pack {sign : Sign} {M : ℕ} {E : ℤ} (canonical : Canonical M E) (range : E ≤ 971) :
    Reading.ofFloat (.ofModel (.pack (.finite sign M E canonical.positive))) =
      .finite (sign == .negative) ⟨M, E, narrowBelow M E⟩ := by
  have unpacked : (Float.ofModel (.pack (.finite sign M E canonical.positive))).toModel.unpack =
      .finite sign M E canonical.positive := unpack_pack canonical range
  rw [reading_eq, unpacked]
  rfl

/-- An integer converted to a float has its sign, and the nearest magnitude. -/
theorem reading_ofInt {i : ℤ} (bounded : i.natAbs < 2 ^ 64) :
    ∃ b : Binary, Reading.ofFloat (Float.ofInt i) = .finite (i < 0) b ∧
      (b.mantissa * 2 ^ b.exponent : ℚ) = nearestWhole i.natAbs := by
  by_cases zero : i = 0
  · subst zero
    exact ⟨⟨0, -1074, false⟩, by decide +kernel, by simp [nearestWhole, roundDiv]⟩
  · obtain ⟨M, E, canonical, range, near, value⟩ := exists_canonical (by omega : 0 < i.natAbs) bounded
    refine ⟨⟨M, E, narrowBelow M E⟩, ?_, value⟩
    have magnitude : Float.ofNat i.natAbs = .ofModel (.pack (.finite .positive M E canonical.positive)) := by
      refine ofScientific_eq (e := 0) (by omega) canonical range ?_
      rwa [decimalValue, zpow_zero, mul_one]
    cases i with
    | ofNat n =>
      have nonneg : decide (Int.ofNat n < 0) = false := by simp
      have converted : Float.ofInt (.ofNat n) = Float.ofNat n := rfl
      rw [nonneg, converted, show n = (Int.ofNat n).natAbs from rfl, magnitude, reading_pack canonical range]
      rfl
    | negSucc n =>
      have negative : decide (Int.negSucc n < 0) = true := by simp
      have converted : Float.ofInt (.negSucc n) = -Float.ofNat (Int.negSucc n).natAbs := rfl
      rw [negative, converted, magnitude, neg_pack canonical range, reading_pack canonical range]
      rfl

/-! ## Places of a whole number -/

theorem toDigits_mul_pow (positive : 0 < n) (k : ℕ) :
    Nat.toDigits 10 (n * 10 ^ k) = Nat.toDigits 10 n ++ List.replicate k '0' := by
  induction k with
  | zero => simp
  | succ k ih =>
    have step := Nat.toDigits_append_toDigits (b := 10) (n := n * 10 ^ k) (d := 0) (by norm_num) (by positivity) (by norm_num)
    have next : n * 10 ^ (k + 1) = 10 * (n * 10 ^ k) + 0 := by ring
    rw [next, ← step, ih, List.replicate_succ', List.append_assoc]
    rfl

/-- The places of a whole number are zeros. -/
theorem places_of_whole {b : Binary} (value : (b.mantissa * 2 ^ b.exponent : ℚ) = n) (places : ℕ) :
    b.places places = (Nat.toDigits 10 n, List.replicate places '0') := by
  have whole : b.mantissa * twoTo b.exponent.toNat = n * twoTo (-b.exponent).toNat := by
    have split := zpow_mul_toNat (b := 2) (by norm_num) b.exponent
    have cast : ((b.mantissa * 2 ^ b.exponent.toNat : ℕ) : ℚ) = (n * 2 ^ (-b.exponent).toNat : ℕ) := by
      push_cast
      rw [← split, ← value, mul_assoc]
    exact_mod_cast cast
  have rounded : roundDiv (b.mantissa * twoTo b.exponent.toNat * tenTo places) (twoTo (-b.exponent).toNat) =
      n * 10 ^ places := by
    rw [whole, Nat.mul_right_comm]
    exact roundDiv_mul _ (Nat.two_pow_pos _)
  simp only [Binary.places, Binary.fraction, rounded]
  obtain rfl | positive := Nat.eq_zero_or_pos n
  · -- A zero is one digit, so all the others are filled in before it.
    have filled : List.replicate places '0' ++ ['0'] = '0' :: List.replicate places '0' := by
      rw [← List.replicate_succ', List.replicate_succ]
    simp [filled]
  · rw [toDigits_mul_pow positive]
    have some : 0 < (Nat.toDigits 10 n).length := Nat.length_toDigits_pos
    have none : places + 1 - ((Nat.toDigits 10 n).length + places) = 0 := by omega
    simp [none]

theorem magnitudeText_of_whole {x : Float} {negative : Bool} {b : Binary} (reads : Reading.ofFloat x = .finite negative b)
    (value : (b.mantissa * 2 ^ b.exponent : ℚ) = n) (places : ℕ) :
    magnitudeText x places =
      Nat.toDigits 10 n ++ if places = 0 then [] else '.' :: List.replicate places '0' := by
  rw [magnitudeText, reads]
  dsimp only
  rw [places_of_whole value]
  by_cases none : places = 0
  · simp [none]
  · simp [none]

end Folio.Decimal
