import Mathlib.Tactic

/-!
# Rounding to a 64-bit float

The logical model of floats rounds a mantissa with two residual bits.  Here those bits are
read as a statement about an exact rational number, and rounding is shown to give the
float whose neighbourhood holds that number.  A neighbourhood is half a gap to either
side; it has its ends if the mantissa is even, and below a power of two the gap is half
as wide.

Main statement: `roundWithAccuracy_eq`.
-/

namespace Folio.Decimal

open Float.Model
open Float.Model.UnpackedFloat (ExtendedMantissa Accuracy Sign roundWithAccuracy
  shiftToTargetExponent shiftToExponent)

/-! ## Residual bits -/

/-- What a mantissa with its residual bits says about a number: its whole part, and on
which side of the middle the rest lies. -/
def Shows (em : ExtendedMantissa) (u : ℚ) : Prop :=
  match em.roundBit, em.stickyBit with
  | false, false => u = em.mantissa
  | false, true => em.mantissa < u ∧ u < em.mantissa + 1 / 2
  | true, false => u = em.mantissa + 1 / 2
  | true, true => em.mantissa + 1 / 2 < u ∧ u < em.mantissa + 1

theorem Shows.bounds {em : ExtendedMantissa} {u : ℚ} (shows : Shows em u) :
    em.mantissa ≤ u ∧ u < em.mantissa + 1 := by
  obtain ⟨m, r, s⟩ := em
  cases r <;> cases s <;> simp only [Shows] at shows
  · exact ⟨shows.ge, by linarith⟩
  · exact ⟨shows.1.le, by linarith [shows.2]⟩
  · exact ⟨by linarith, by linarith⟩
  · exact ⟨by linarith [shows.1], shows.2⟩

theorem Shows.shiftRightOne {em : ExtendedMantissa} {u : ℚ} (shows : Shows em u) :
    Shows em.shiftRightOne (u / 2) := by
  obtain ⟨m, r, s⟩ := em
  have parts : (m : ℚ) = 2 * (m / 2 : ℕ) + (m % 2 : ℕ) := by exact_mod_cast (Nat.div_add_mod m 2).symm
  -- The bit that falls out of the mantissa is the new round bit.
  obtain even | odd : m % 2 = 0 ∨ m % 2 = 1 := by omega
  · cases r <;> cases s <;>
      simp only [Shows, ExtendedMantissa.shiftRightOne, even, Nat.cast_zero, bne_self_eq_false,
        Bool.or_self, Bool.or_true, Bool.or_false] at shows parts ⊢
    · linarith
    · constructor <;> linarith [shows.1, shows.2]
    · constructor <;> linarith
    · constructor <;> linarith [shows.1, shows.2]
  · cases r <;> cases s <;>
      simp only [Shows, ExtendedMantissa.shiftRightOne, odd, Nat.cast_one, Bool.or_self, Bool.or_true,
        Bool.or_false, Nat.reduceBneDiff] at shows parts ⊢
    · linarith
    · constructor <;> linarith [shows.1, shows.2]
    · constructor <;> linarith
    · constructor <;> linarith [shows.1, shows.2]

theorem Shows.shiftRight {em : ExtendedMantissa} {u : ℚ} (shows : Shows em u) (n : ℕ) :
    Shows (em >>> n) (u / 2 ^ n) := by
  change Shows (n.repeat ExtendedMantissa.shiftRightOne em) _
  induction n with
  | zero => simpa [Nat.repeat] using shows
  | succ n ih =>
    have halved := ih.shiftRightOne
    rwa [div_div, ← pow_succ] at halved

/-! ## The nearest mantissa -/

/-- The number lies where it rounds to the whole number `M`: at most half a unit away,
less than that if `M` is odd, and less than a quarter below if the gap there is half as
wide. -/
structure RoundsTo (M : ℕ) (narrow : Bool) (u : ℚ) : Prop where
  above : M - (if narrow then 1 / 4 else 1 / 2) ≤ u
  below : u ≤ M + 1 / 2
  inside : M % 2 = 1 → M - (if narrow then 1 / 4 else 1 / 2) < u ∧ u < M + 1 / 2

/-- A whole number rounds to itself. -/
theorem RoundsTo.self (M : ℕ) (narrow : Bool) : RoundsTo M narrow M := by
  refine ⟨?_, ?_, fun _ => ⟨?_, ?_⟩⟩ <;> cases narrow <;> norm_num

theorem RoundsTo.widen {M : ℕ} {narrow : Bool} {u : ℚ} (near : RoundsTo M narrow u) :
    RoundsTo M false u := by
  obtain ⟨above, below, inside⟩ := near
  cases narrow with
  | false => exact ⟨above, below, inside⟩
  | true =>
    simp only [ite_true] at above inside
    refine ⟨?_, below, fun odd => ⟨?_, (inside odd).2⟩⟩
    · simp only [Bool.false_eq_true, ite_false]; linarith
    · simp only [Bool.false_eq_true, ite_false]; linarith [(inside odd).1]

theorem Shows.roundedMantissa {em : ExtendedMantissa} {u : ℚ} {M : ℕ} (shows : Shows em u)
    (near : RoundsTo M false u) : em.roundedMantissa = M := by
  obtain ⟨above, below, inside⟩ := near
  obtain ⟨lower, upper⟩ := shows.bounds
  simp only [Bool.false_eq_true, ite_false] at above inside
  have le : em.mantissa ≤ M := by
    have : (em.mantissa : ℚ) < (M + 1 : ℕ) := by push_cast; linarith
    exact Nat.lt_succ_iff.1 (by exact_mod_cast this)
  have ge : M ≤ em.mantissa + 1 := by
    have : (M : ℚ) < (em.mantissa + 2 : ℕ) := by push_cast; linarith
    exact Nat.lt_succ_iff.1 (by exact_mod_cast this)
  -- The residual bits say which of the two it is, and a tie goes to the even one.
  obtain ⟨m, r, s⟩ := em
  simp only at le ge
  obtain same | next : M = m ∨ M = m + 1 := by omega
  · subst same
    cases r <;> cases s <;>
      simp only [Shows, ExtendedMantissa.roundedMantissa, ExtendedMantissa.accuracy,
        Accuracy.roundToNearestEven] at shows ⊢
    · obtain even | odd : M % 2 = 0 ∨ M % 2 = 1 := by omega
      · omega
      · linarith [(inside odd).2]
    · linarith [shows.1]
  · subst next
    cases r <;> cases s <;>
      simp only [Shows, ExtendedMantissa.roundedMantissa, ExtendedMantissa.accuracy,
        Accuracy.roundToNearestEven] at shows ⊢ <;> push_cast at above below inside
    · linarith
    · linarith [shows.2]
    · obtain even | odd : m % 2 = 0 ∨ m % 2 = 1 := by omega
      · linarith [(inside (by omega)).1]
      · omega

/-! ## The exponent -/

/-- The mantissa and exponent with which a float is held: fifty-three bits, or fewer at
the smallest exponent. -/
structure Canonical (M : ℕ) (E : ℤ) : Prop where
  positive : 0 < M
  bounded : M < 2 ^ 53
  floor : -1074 ≤ E
  normal : 2 ^ 52 ≤ M ∨ E = -1074

/-- The gap below the float is half as wide as the one above. -/
def narrowBelow (M : ℕ) (E : ℤ) : Bool :=
  M == 2 ^ 52 && -1074 < E

theorem targetExponent_eq (m : ℕ) (e : ℤ) :
    Format.binary64.targetExponent (totalExponent m e) = max ((m.log2 : ℤ) + e - 52) (-1074) := by
  have bits : (Format.binary64.mantissaBits : ℤ) = 53 := rfl
  have lowest : Format.binary64.minExponent = -1074 := rfl
  rw [Format.targetExponent, totalExponent, bits, lowest]
  omega

theorem log2_le_of_lt {m k : ℕ} (bounded : m < 2 ^ (k + 1)) : m.log2 ≤ k := by
  by_cases zero : m = 0
  · simp [zero]
  · exact Nat.lt_succ_iff.1 ((Nat.log2_lt zero).2 bounded)

/-- A canonical mantissa is at its place. -/
theorem Canonical.shift {M : ℕ} {E : ℤ} (canonical : Canonical M E) :
    shiftToTargetExponent Format.binary64 M E .exact = (⟨M, false, false⟩, E) := by
  have bits : M.log2 ≤ 52 := log2_le_of_lt canonical.bounded
  have floor := canonical.floor
  have still : (Format.binary64.targetExponent (totalExponent M E) - E).toNat = 0 := by
    rw [targetExponent_eq]
    omega
  simp only [shiftToTargetExponent, shiftToExponent, still]
  simp [ExtendedMantissa.ofMantissaAndAccuracy, HShiftRight.hShiftRight, Nat.repeat]

/-- A mantissa that rounding has carried into one more bit goes back by one place. -/
theorem shift_carry {E : ℤ} (floor : -1074 < E) :
    shiftToTargetExponent Format.binary64 (2 ^ 53) (E - 1) .exact = (⟨2 ^ 52, false, false⟩, E) := by
  have one : (Format.binary64.targetExponent (totalExponent (2 ^ 53) (E - 1)) - (E - 1)).toNat = 1 := by
    rw [targetExponent_eq, Nat.log2_two_pow]
    omega
  simp only [shiftToTargetExponent, shiftToExponent, one]
  simp [ExtendedMantissa.ofMantissaAndAccuracy, HShiftRight.hShiftRight, Nat.repeat,
    ExtendedMantissa.shiftRightOne]

/-- A mantissa of enough bits, moved to the place that the format wants it at: it shows
the same number there, and has fifty-three bits unless that is the last place. -/
theorem shift_shows {m : ℕ} {e : ℤ} {accuracy : Accuracy} {v : ℚ}
    (shows : Shows (.ofMantissaAndAccuracy m accuracy) (v / 2 ^ e)) (bits : e ≤ -1074 ∨ 2 ^ 52 ≤ m) :
    ∃ em t, shiftToTargetExponent Format.binary64 m e accuracy = (em, t) ∧ Shows em (v / 2 ^ t) ∧
      -1074 ≤ t ∧ v / 2 ^ t < 2 ^ 53 ∧ (t = -1074 ∨ 2 ^ 52 ≤ v / 2 ^ t) := by
  have mantissa : (ExtendedMantissa.ofMantissaAndAccuracy m accuracy).mantissa = m := by
    cases accuracy with
    | exact => rfl
    | inexact side => cases side <;> rfl
  obtain ⟨lower, upper⟩ := shows.bounds
  rw [mantissa] at lower upper
  have target := targetExponent_eq m e
  -- There are bits enough, so that none has to be added at the end.
  have enough : e ≤ max ((m.log2 : ℤ) + e - 52) (-1074) := by
    obtain small | large := bits
    · omega
    · have := (Nat.le_log2 (by omega)).2 large
      omega
  generalize place : max ((m.log2 : ℤ) + e - 52) (-1074) = t at target enough
  obtain ⟨k, rfl⟩ : ∃ k : ℕ, t = e + k := ⟨(t - e).toNat, by omega⟩
  have amount : (e + (k : ℤ) - e).toNat = k := by omega
  have scaled : v / 2 ^ (e + (k : ℤ)) = v / 2 ^ e / 2 ^ k := by
    rw [zpow_add₀ (by norm_num), zpow_natCast, div_div]
  refine ⟨_, _, by rw [shiftToTargetExponent, target, shiftToExponent, amount], ?_, by omega, ?_, ?_⟩
  · rw [scaled]
    exact shows.shiftRight k
  · have top : m + 1 ≤ 2 ^ (53 + k) :=
      Nat.lt_log2_self.trans_le (Nat.pow_le_pow_right (by omega) (by omega))
    have : (m : ℚ) + 1 ≤ 2 ^ 53 * 2 ^ k := by rw [← pow_add]; exact_mod_cast top
    rw [scaled, div_lt_iff₀ (by positivity)]
    linarith
  · by_cases last : e + (k : ℤ) = -1074
    · exact .inl last
    · have nonzero : m ≠ 0 := by
        rintro rfl
        simp only [Nat.log2_zero] at place
        omega
      have bottom : 2 ^ (52 + k) ≤ m :=
        (Nat.pow_le_pow_right (by omega) (by omega)).trans (Nat.log2_self_le nonzero)
      have : (2 : ℚ) ^ 52 * 2 ^ k ≤ m := by rw [← pow_add]; exact_mod_cast bottom
      refine .inr ?_
      rw [scaled, le_div_iff₀ (by positivity)]
      linarith

theorem div_zpow_eq (v : ℚ) (e : ℤ) (k : ℕ) : v / 2 ^ e = v / 2 ^ (e + k + 1) * (2 ^ k * 2) := by
  rw [zpow_add₀ (by norm_num), zpow_add₀ (by norm_num), zpow_natCast, zpow_one]
  field_simp

/-- Where a number that rounds to the float `M * 2 ^ E` is cut off: at the float's own
last place, or one place lower if the number lies below a power of two to which it is
rounded up. -/
theorem place_of_roundsTo {M : ℕ} {E t : ℤ} {v : ℚ} (canonical : Canonical M E)
    (near : RoundsTo M (narrowBelow M E) (v / 2 ^ E)) (floor : -1074 ≤ t)
    (upper : v / 2 ^ t < 2 ^ 53) (lower : t = -1074 ∨ 2 ^ 52 ≤ v / 2 ^ t) :
    t = E ∨ t = E - 1 ∧ -1074 < E ∧ M = 2 ^ 52 ∧ RoundsTo (2 ^ 53) false (v / 2 ^ t) := by
  have half := near.widen.above
  simp only [Bool.false_eq_true, ite_false] at half
  obtain less | same | greater := lt_trichotomy t E
  · right
    have high : -1074 < E := by omega
    have mantissa : 2 ^ 52 ≤ M := canonical.normal.resolve_right (by omega)
    have mantissaCast : (2 : ℚ) ^ 52 ≤ M := by exact_mod_cast mantissa
    obtain ⟨k, rfl⟩ : ∃ k : ℕ, E = t + k + 1 := ⟨(E - t - 1).toNat, by omega⟩
    have scaled := div_zpow_eq v t k
    -- Two places lower the number would have too many bits.
    obtain rfl : k = 0 := by
      by_contra some
      have : (2 : ℚ) ^ 1 ≤ 2 ^ k := pow_le_pow_right₀ (by norm_num) (by omega)
      rw [scaled] at upper
      nlinarith
    simp only [Nat.cast_zero, add_zero, pow_zero, one_mul] at *
    have power : M = 2 ^ 52 := by
      by_contra other
      have : ((2 ^ 52 + 1 : ℕ) : ℚ) ≤ M := by exact_mod_cast (by omega : 2 ^ 52 + 1 ≤ M)
      push_cast at this
      rw [scaled] at upper
      linarith
    have quarter := near.above
    simp only [narrowBelow, power, high, beq_self_eq_true, decide_true, Bool.and_self, ite_true]
      at quarter
    push_cast at quarter
    refine ⟨by omega, high, power, ?_, ?_, fun odd => absurd odd (by norm_num)⟩
    · simp only [Bool.false_eq_true, ite_false]
      push_cast
      linarith
    · push_cast
      linarith
  · exact .inl same
  · -- One place higher it would have too few.
    have large := lower.resolve_left (by have := canonical.floor; omega)
    obtain ⟨k, rfl⟩ : ∃ k : ℕ, t = E + k + 1 := ⟨(t - E - 1).toNat, by omega⟩
    have scaled := div_zpow_eq v E k
    have small : (M : ℚ) + 1 ≤ 2 ^ 53 := by exact_mod_cast canonical.bounded
    have grow : (1 : ℚ) ≤ 2 ^ k := one_le_pow₀ (by norm_num)
    have below := near.below
    rw [scaled] at below
    nlinarith

/-- A number is rounded to the float in whose neighbourhood it lies. -/
theorem roundWithAccuracy_eq {sign : Sign} {m M : ℕ} {e E : ℤ} {accuracy : Accuracy} {v : ℚ}
    (canonical : Canonical M E) (near : RoundsTo M (narrowBelow M E) (v / 2 ^ E))
    (shows : Shows (.ofMantissaAndAccuracy m accuracy) (v / 2 ^ e)) (bits : e ≤ -1074 ∨ 2 ^ 52 ≤ m) :
    roundWithAccuracy Format.binary64 sign m e accuracy = .finite sign M E canonical.positive := by
  obtain ⟨em, t, first, shows, floor, upper, lower⟩ := shift_shows shows bits
  rw [roundWithAccuracy, first]
  dsimp only
  obtain rfl | ⟨rfl, high, rfl, carried⟩ := place_of_roundsTo canonical near floor upper lower
  · rw [shows.roundedMantissa near.widen, canonical.shift]
    exact dif_neg canonical.positive.ne'
  · rw [shows.roundedMantissa carried, shift_carry high]
    exact dif_neg (by norm_num)

end Folio.Decimal
