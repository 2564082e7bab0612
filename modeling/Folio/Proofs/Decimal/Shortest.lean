import Folio.Decimal.Shortest
import Folio.Proofs.Decimal.Scientific

/-!
# Shortest digits read back

The digits that are chosen for a float lie in its neighbourhood: a point of a grid is
taken only if the interval of the float contains it, and the digits that are written out
exactly are the float itself.

Main statement: `shortest_roundsTo`.
-/

namespace Folio.Decimal

open Float.Model

variable {M : ℕ} {E : ℤ}

theorem zpow_mul_toNat {b : ℚ} (nonzero : b ≠ 0) (z : ℤ) : b ^ z * b ^ (-z).toNat = b ^ z.toNat := by
  rw [← zpow_natCast, ← zpow_natCast, ← zpow_add₀ nonzero]
  congr 1
  omega

/-! ## Comparisons of natural numbers

The interval of a float and the points of a grid are compared over a common denominator.
`grain` is that denominator as a rational, so that both sides become what they stand for. -/

def grain (E g : ℤ) : ℚ :=
  2 ^ E * (twoTo (-(E - 2)).toNat : ℕ) * (tenTo (-g).toNat : ℕ)

theorem grain_pos (E g : ℤ) : 0 < grain E g := by
  simp only [grain, twoTo, tenTo, Nat.pow_eq]
  positivity

theorem quarters_eq (a : ℕ) (E g : ℤ) :
    ((a * twoTo (E - 2).toNat * tenTo (-g).toNat : ℕ) : ℚ) = a / 4 * grain E g := by
  have split := zpow_mul_toNat (b := 2) (by norm_num) (E - 2)
  have quarter : (2 : ℚ) ^ (E - 2) = 2 ^ E / 4 := by
    rw [zpow_sub₀ (by norm_num)]
    norm_num
  simp only [grain, twoTo, tenTo, Nat.pow_eq]
  push_cast
  rw [← split, quarter]
  ring

theorem point_eq (c : ℕ) (E g : ℤ) :
    ((c * tenTo g.toNat * twoTo (-(E - 2)).toNat : ℕ) : ℚ) = decimalValue c g / 2 ^ E * grain E g := by
  have split := zpow_mul_toNat (b := 10) (by norm_num) g
  simp only [grain, decimalValue, twoTo, tenTo, Nat.pow_eq]
  push_cast
  rw [← split]
  field_simp

theorem quarters_lt_point {a c : ℕ} {E g : ℤ} :
    a * twoTo (E - 2).toNat * tenTo (-g).toNat < c * tenTo g.toNat * twoTo (-(E - 2)).toNat ↔
      (a / 4 : ℚ) < decimalValue c g / 2 ^ E := by
  rw [← Nat.cast_lt (α := ℚ), quarters_eq, point_eq, mul_lt_mul_iff_left₀ (grain_pos E g)]

theorem point_lt_quarters {a c : ℕ} {E g : ℤ} :
    c * tenTo g.toNat * twoTo (-(E - 2)).toNat < a * twoTo (E - 2).toNat * tenTo (-g).toNat ↔
      decimalValue c g / 2 ^ E < (a / 4 : ℚ) := by
  rw [← Nat.cast_lt (α := ℚ), quarters_eq, point_eq, mul_lt_mul_iff_left₀ (grain_pos E g)]

theorem quarters_eq_point {a c : ℕ} {E g : ℤ} :
    a * twoTo (E - 2).toNat * tenTo (-g).toNat = c * tenTo g.toNat * twoTo (-(E - 2)).toNat ↔
      (a / 4 : ℚ) = decimalValue c g / 2 ^ E := by
  rw [← Nat.cast_inj (R := ℚ), quarters_eq, point_eq, mul_left_inj' (grain_pos E g).ne']

/-! ## Points of the interval -/

/-- A point that the interval of a float contains is rounded to the float. -/
theorem roundsTo_of_contains (positive : 0 < M) {c : ℕ} {g : ℤ}
    (inside : (Binary.interval ⟨M, E, narrowBelow M E⟩).contains c g = true) :
    RoundsTo M (narrowBelow M E) (decimalValue c g / 2 ^ E) := by
  have lowCast : ((4 * M - (if narrowBelow M E then 1 else 2) : ℕ) : ℚ) / 4 =
      M - (if narrowBelow M E then 1 / 4 else 1 / 2) := by
    cases narrowBelow M E
    · simp only [Bool.false_eq_true, if_false]
      rw [Nat.cast_sub (by omega)]
      push_cast
      ring
    · simp only [if_true]
      rw [Nat.cast_sub (by omega)]
      push_cast
      ring
  have highCast : ((4 * M + 2 : ℕ) : ℚ) / 4 = M + 1 / 2 := by
    push_cast
    ring
  simp only [Interval.contains, Bool.and_eq_true, Bool.or_eq_true, decide_eq_true_eq,
    beq_iff_eq] at inside
  obtain ⟨above, below⟩ := inside
  simp only [Binary.interval, beq_iff_eq] at above below
  rw [quarters_lt_point, quarters_eq_point, lowCast] at above
  rw [point_lt_quarters, quarters_eq_point, highCast] at below
  refine ⟨?_, ?_, fun odd => ⟨?_, ?_⟩⟩
  · obtain strict | ⟨_, same⟩ := above
    · exact strict.le
    · exact same.le
  · obtain strict | ⟨_, same⟩ := below
    · exact strict.le
    · exact same.ge
  · exact above.resolve_right fun closed => by omega
  · exact below.resolve_right fun closed => by omega

theorem contains_of_onGrid {i : Interval} {g : ℤ} {c : ℕ} (found : i.onGrid g = some c) :
    i.contains c g = true := by
  unfold Interval.onGrid at found
  simp only at found
  split at found
  · rename_i first second
    split at found <;> cases found <;> assumption
  · cases found; assumption
  · cases found; assumption
  · cases found

/-! ## The digits -/

theorem decimalValue_strip (fuel : ℕ) (d : Digits) :
    decimalValue (d.strip fuel).digits (d.strip fuel).exponent = decimalValue d.digits d.exponent := by
  induction fuel generalizing d with
  | zero => rfl
  | succ fuel ih =>
    rw [Digits.strip]
    split
    · rename_i zero
      rw [ih]
      have tenfold : (d.digits : ℚ) = 10 * (d.digits / 10 : ℕ) := by
        exact_mod_cast (by omega : d.digits = 10 * (d.digits / 10))
      simp only [decimalValue]
      rw [tenfold, zpow_add_one₀ (by norm_num)]
      ring
    · rfl

/-- A float written out exactly has its own value. -/
theorem decimalValue_exact (M : ℕ) (E : ℤ) :
    decimalValue (M * twoTo E.toNat * fiveTo (-E).toNat) (min E 0) = M * 2 ^ E := by
  have split := zpow_mul_toNat (b := 2) (by norm_num) E
  have tens : (10 : ℚ) ^ min E 0 * 10 ^ (-E).toNat = 1 := by
    rw [← zpow_natCast, ← zpow_add₀ (by norm_num), show min E 0 + ((-E).toNat : ℤ) = 0 by omega, zpow_zero]
  have ten : (10 : ℚ) ^ (-E).toNat = 2 ^ (-E).toNat * 5 ^ (-E).toNat := by
    rw [← mul_pow]; norm_num
  simp only [decimalValue, twoTo, fiveTo, Nat.pow_eq]
  push_cast
  rw [← split]
  calc
    (M * (2 ^ E * 2 ^ (-E).toNat) * 5 ^ (-E).toNat * 10 ^ min E 0 : ℚ) =
        M * 2 ^ E * (10 ^ min E 0 * (2 ^ (-E).toNat * 5 ^ (-E).toNat)) := by ring
    _ = M * 2 ^ E := by rw [← ten, tens, mul_one]

theorem shortest_cases {b : Binary} (nonzero : b.mantissa ≠ 0) :
    (∃ c g, b.interval.onGrid g = some c ∧ b.shortest = Digits.strip 20 ⟨c, g⟩) ∨
      b.shortest = ⟨b.mantissa * twoTo b.exponent.toNat * fiveTo (-b.exponent).toNat, min b.exponent 0⟩ := by
  have guard : ¬(b.mantissa == 0) = true := by simpa using nonzero
  rw [Binary.shortest, if_neg guard]
  extract_lets i place found
  -- The first place only bounds how coarse the grids are that get tried: its value never matters.
  clear_value place
  cases which : found with
  | some d =>
    obtain ⟨n, _, grid⟩ := List.exists_of_findSome?_eq_some which
    obtain ⟨c, point, rfl⟩ := Option.map_eq_some_iff.1 grid
    exact .inl ⟨c, _, point, rfl⟩
  | none => exact .inr rfl

/-- The digits that stand for a float lie where exactly that float is nearest. -/
theorem shortest_roundsTo {M : ℕ} {E : ℤ} (positive : 0 < M) {d : Digits}
    (shortest : (Binary.mk M E (narrowBelow M E)).shortest = d) :
    RoundsTo M (narrowBelow M E) (decimalValue d.digits d.exponent / 2 ^ E) := by
  obtain ⟨c, g, point, same⟩ | same := shortest_cases (b := ⟨M, E, narrowBelow M E⟩) positive.ne'
  · rw [← shortest, same, decimalValue_strip]
    exact roundsTo_of_contains positive (contains_of_onGrid point)
  · rw [← shortest, same, decimalValue_exact, mul_div_cancel_right₀ _ (by positivity)]
    exact RoundsTo.self M _

end Folio.Decimal
