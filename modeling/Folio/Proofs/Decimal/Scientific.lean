import Folio.Decimal.Numeral
import Folio.Proofs.Decimal.FloatBits
import Mathlib.Algebra.Order.Field.Power

/-!
# Decimals rounded to floats

`Float.ofScientific` gives the float nearest to a decimal.  Small decimals are divided or
multiplied as floats, all others as unpacked floats of any size; either way the result is
the exact quotient or product, rounded once.

Main statement: `nearestFloat_eq`, for the numerals that expressions hold.
-/

namespace Folio.Decimal

open Float.Model
open Float.Model.UnpackedFloat (Sign ExtendedMantissa Accuracy accuracyOfFraction divCore
  roundWithAccuracy)

variable {M : ℕ} {E : ℤ}

/-! ## Products and quotients -/

theorem mul_eq {s₁ s₂ : Sign} {m₁ m₂ : ℕ} {e₁ e₂ : ℤ} {h₁ : 0 < m₁} {h₂ : 0 < m₂}
    (canonical : Canonical M E) (bits : 2 ^ 52 ≤ m₁ * m₂)
    (near : RoundsTo M (narrowBelow M E) ((m₁ * 2 ^ e₁) * (m₂ * 2 ^ e₂) / 2 ^ E : ℚ)) :
    UnpackedFloat.mul Format.binary64 (.finite s₁ m₁ e₁ h₁) (.finite s₂ m₂ e₂ h₂) =
      .finite (s₁ * s₂) M E canonical.positive := by
  refine roundWithAccuracy_eq canonical near ?_ (.inr bits)
  change _ = ((m₁ * m₂ : ℕ) : ℚ)
  rw [zpow_add₀ (by norm_num)]
  push_cast
  field_simp

/-- What is left over from a division, as residual bits. -/
theorem shows_division (a : ℕ) {d : ℕ} (positive : 0 < d) :
    Shows (.ofMantissaAndAccuracy (a / d) (accuracyOfFraction (a % d) d)) (a / d : ℚ) := by
  have whole : (a : ℚ) = d * (a / d : ℕ) + (a % d : ℕ) := by exact_mod_cast (Nat.div_add_mod a d).symm
  have left : ((a % d : ℕ) : ℚ) < d := by exact_mod_cast Nat.mod_lt a positive
  have positiveCast : (0 : ℚ) < d := by exact_mod_cast positive
  have quotient : (a / d : ℚ) = (a / d : ℕ) + (a % d : ℕ) / d := by
    field_simp
    linarith
  rw [quotient]
  unfold accuracyOfFraction
  split
  · rename_i none
    simp [Shows, ExtendedMantissa.ofMantissaAndAccuracy, none]
  · rename_i some
    have someCast : (0 : ℚ) < (a % d : ℕ) := by exact_mod_cast Nat.pos_of_ne_zero some
    have fraction : (0 : ℚ) < (a % d : ℕ) / d := by positivity
    have fractionLt : ((a % d : ℕ) : ℚ) / d < 1 := by rw [div_lt_one positiveCast]; exact left
    -- The two residual bits say on which side of one half the rest lies.
    cases side : compare (2 * (a % d)) d with
    | lt =>
      have : (2 : ℚ) * (a % d : ℕ) < d := by exact_mod_cast Nat.compare_eq_lt.1 side
      have : ((a % d : ℕ) : ℚ) / d < 1 / 2 := by rw [div_lt_iff₀ positiveCast]; linarith
      change ((a / d : ℕ) : ℚ) < _ ∧ _ < ((a / d : ℕ) : ℚ) + 1 / 2
      constructor <;> linarith
    | eq =>
      have : (2 : ℚ) * (a % d : ℕ) = d := by exact_mod_cast Nat.compare_eq_eq.1 side
      have : ((a % d : ℕ) : ℚ) / d = 1 / 2 := by rw [div_eq_iff positiveCast.ne']; linarith
      change _ = ((a / d : ℕ) : ℚ) + 1 / 2
      rw [this]
    | gt =>
      have : (d : ℚ) < 2 * (a % d : ℕ) := by exact_mod_cast Nat.compare_eq_gt.1 side
      have : (1 : ℚ) / 2 < ((a % d : ℕ) : ℚ) / d := by rw [lt_div_iff₀ positiveCast]; linarith
      change ((a / d : ℕ) : ℚ) + 1 / 2 < _ ∧ _ < ((a / d : ℕ) : ℚ) + 1
      constructor <;> linarith

/-- The quotient has fifty-three bits, unless its last place is the last of all. -/
theorem divCore_bits {m₁ m₂ : ℕ} {e₁ e₂ : ℤ} (h₁ : 0 < m₁) (h₂ : 0 < m₂) :
    (divCore Format.binary64 m₁ e₁ m₂ e₂).2.1 ≤ -1074 ∨
      2 ^ 52 ≤ (divCore Format.binary64 m₁ e₁ m₂ e₂).1 := by
  simp only [divCore]
  generalize place : min (e₁ - e₂)
    (Format.binary64.targetExponent (totalExponent m₁ e₁ - totalExponent m₂ e₂)) = t
  by_cases last : t ≤ -1074
  · exact .inl last
  · right
    simp only [Format.targetExponent, totalExponent, Format.mantissaBits, Format.minExponent] at place
    norm_num at place
    rw [Nat.le_div_iff_mul_le h₂, Nat.shiftLeft_eq]
    -- The divisor has fewer bits than this, the dividend at least as many.
    have divisor : m₂ ≤ 2 ^ (m₂.log2 + 1) := Nat.lt_log2_self.le
    have dividend : 2 ^ m₁.log2 ≤ m₁ := Nat.log2_self_le h₁.ne'
    calc
      2 ^ 52 * m₂ ≤ 2 ^ 52 * 2 ^ (m₂.log2 + 1) := Nat.mul_le_mul_left _ divisor
      _ = 2 ^ (52 + (m₂.log2 + 1)) := (Nat.pow_add ..).symm
      _ ≤ 2 ^ (m₁.log2 + (e₁ - e₂ - t).toNat) := Nat.pow_le_pow_right (by norm_num) (by omega)
      _ = 2 ^ m₁.log2 * 2 ^ (e₁ - e₂ - t).toNat := Nat.pow_add ..
      _ ≤ m₁ * 2 ^ (e₁ - e₂ - t).toNat := Nat.mul_le_mul_right _ dividend

theorem div_eq {s₁ s₂ : Sign} {m₁ m₂ : ℕ} {e₁ e₂ : ℤ} {h₁ : 0 < m₁} {h₂ : 0 < m₂}
    (canonical : Canonical M E)
    (near : RoundsTo M (narrowBelow M E) ((m₁ * 2 ^ e₁) / (m₂ * 2 ^ e₂) / 2 ^ E : ℚ)) :
    UnpackedFloat.div Format.binary64 (.finite s₁ m₁ e₁ h₁) (.finite s₂ m₂ e₂ h₂) =
      .finite (s₁ / s₂) M E canonical.positive := by
  refine roundWithAccuracy_eq canonical near ?_ (divCore_bits h₁ h₂)
  generalize place : min (e₁ - e₂)
    (Format.binary64.targetExponent (totalExponent m₁ e₁ - totalExponent m₂ e₂)) = t
  obtain ⟨k, shifted⟩ : ∃ k : ℕ, e₁ - e₂ = t + k := ⟨(e₁ - e₂ - t).toNat, by omega⟩
  have amount : (e₁ - e₂ - t).toNat = k := by omega
  have value : ((m₁ * 2 ^ e₁) / (m₂ * 2 ^ e₂) / 2 ^ t : ℚ) = ((m₁ <<< k : ℕ) : ℚ) / m₂ := by
    rw [show e₁ = t + k + e₂ by omega, zpow_add₀ (by norm_num), zpow_add₀ (by norm_num),
      zpow_natCast, Nat.shiftLeft_eq]
    push_cast
    field_simp
  rw [amount, value]
  exact shows_division _ h₂

/-! ## Operands of the fast path -/

/-- The unpacked float is exactly this positive number, with all fifty-three bits. -/
def Exactly (f : UnpackedFloat) (v : ℚ) : Prop :=
  ∃ (m : ℕ) (e : ℤ) (positive : 0 < m),
    f = .finite .positive m e positive ∧ 2 ^ 52 ≤ m ∧ (m * 2 ^ e : ℚ) = v

/-- The mantissa of a whole number below `2 ^ 53`, moved up to fifty-three bits. -/
def fullMantissa (n : ℕ) : ℕ :=
  n * 2 ^ (52 - n.log2)

theorem fullMantissa_bounds {n : ℕ} (positive : 0 < n) (bounded : n < 2 ^ 53) :
    2 ^ 52 ≤ fullMantissa n ∧ fullMantissa n < 2 ^ 53 := by
  have bits : n.log2 ≤ 52 := log2_le_of_lt bounded
  have low : 2 ^ n.log2 ≤ n := Nat.log2_self_le positive.ne'
  have high : n < 2 ^ (n.log2 + 1) := Nat.lt_log2_self
  have pad : 0 < 2 ^ (52 - n.log2) := by positivity
  constructor
  · calc
      2 ^ 52 = 2 ^ n.log2 * 2 ^ (52 - n.log2) := by rw [← Nat.pow_add]; congr 1; omega
      _ ≤ fullMantissa n := Nat.mul_le_mul_right _ low
  · calc
      fullMantissa n < 2 ^ (n.log2 + 1) * 2 ^ (52 - n.log2) := Nat.mul_lt_mul_of_pos_right high pad
      _ = 2 ^ 53 := by rw [← Nat.pow_add]; congr 1; omega

theorem fullMantissa_value {n : ℕ} (bounded : n < 2 ^ 53) (k : ℤ) :
    (fullMantissa n * 2 ^ ((n.log2 : ℤ) - 52 + k) : ℚ) = n * 2 ^ k := by
  have bits : n.log2 ≤ 52 := log2_le_of_lt bounded
  have cancel : (2 : ℚ) ^ (52 - n.log2) * 2 ^ ((n.log2 : ℤ) - 52) = 1 := by
    rw [← zpow_natCast, ← zpow_add₀ (by norm_num),
      show ((52 - n.log2 : ℕ) : ℤ) + (n.log2 - 52) = 0 by omega, zpow_zero]
  rw [fullMantissa, zpow_add₀ (by norm_num)]
  push_cast
  rw [show (n * 2 ^ (52 - n.log2) * (2 ^ ((n.log2 : ℤ) - 52) * 2 ^ k) : ℚ) =
    n * (2 ^ (52 - n.log2) * 2 ^ ((n.log2 : ℤ) - 52)) * 2 ^ k by ring, cancel, mul_one]

theorem exactly_toFloat {n : ℕ} (positive : 0 < n) (bounded : n < 2 ^ 53) :
    Exactly n.toUInt64.toFloat.toModel.unpack n := by
  have bits : n.log2 ≤ 52 := log2_le_of_lt bounded
  obtain ⟨full, narrow⟩ := fullMantissa_bounds positive bounded
  have canonical : Canonical (fullMantissa n) (n.log2 - 52) :=
    ⟨by omega, narrow, by omega, .inl full⟩
  have value := fullMantissa_value bounded 0
  simp only [add_zero, zpow_zero, mul_one] at value
  have word : n.toUInt64.toNat = n := UInt64.toNat_ofNat_of_lt' (bounded.trans (by decide))
  have unpacked : UnpackedFloat.ofUInt64 Format.binary64 n.toUInt64 =
      .finite .positive (fullMantissa n) (n.log2 - 52) canonical.positive := by
    have sign : compare ((n : ℕ) : ℤ) 0 = .gt := Int.compare_eq_gt.2 (by omega)
    -- The mantissa is moved up, never down: no bit is lost.
    have amount : (0 - max ((n.log2 : ℤ) + 0 - 52) (-1074)).toNat = 52 - n.log2 := by omega
    simp only [UnpackedFloat.ofUInt64, UnpackedFloat.ofNat, UnpackedFloat.ofInt, word,
      UnpackedFloat.normalize, sign, UnpackedFloat.round, UnpackedFloat.decreaseExponent,
      Int.toNat_natCast, targetExponent_eq, amount, Nat.shiftLeft_eq]
    have place : (0 : ℤ) - (52 - n.log2 : ℕ) = n.log2 - 52 := by omega
    rw [place]
    have self : (fullMantissa n : ℚ) = n / 2 ^ ((n.log2 : ℤ) - 52) := by
      rw [← value]
      field_simp
    refine roundWithAccuracy_eq (v := n) canonical ?_ ?_ (.inr full)
    · rw [← self]
      exact .self _ _
    · exact self.symm
  refine ⟨_, _, canonical.positive, ?_, full, value⟩
  change (Float.Model.pack _).unpack = _
  rw [unpacked, unpack_pack canonical (by omega)]

/-- The powers of ten up to the twenty-second need no more than fifty-three bits. -/
theorem powersOfTen_eq : ∀ k : Fin Float.exactlyRepresentablePowersOfTen.size,
    Float.exactlyRepresentablePowersOfTen[k] =
      .ofModel (.pack (.finite .positive (fullMantissa (5 ^ k.val)) ((5 ^ k.val).log2 - 52 + k.val)
        (by unfold fullMantissa; positivity))) := by
  decide +kernel

theorem exactly_power {k : ℕ} (small : k < Float.exactlyRepresentablePowersOfTen.size) :
    Exactly (Float.exactlyRepresentablePowersOfTen[k]).toModel.unpack (10 ^ k) := by
  have size : Float.exactlyRepresentablePowersOfTen.size = 23 := rfl
  have bounded : 5 ^ k < 2 ^ 53 :=
    (Nat.pow_le_pow_right (by norm_num) (by omega : k ≤ 22)).trans_lt (by norm_num)
  have bits : (5 ^ k).log2 ≤ 52 := log2_le_of_lt bounded
  obtain ⟨full, narrow⟩ := fullMantissa_bounds (n := 5 ^ k) (by positivity) bounded
  have canonical : Canonical (fullMantissa (5 ^ k)) ((5 ^ k).log2 - 52 + k) :=
    ⟨by omega, narrow, by omega, .inl full⟩
  refine ⟨_, (5 ^ k).log2 - 52 + k, canonical.positive, ?_, full, ?_⟩
  · have table := powersOfTen_eq ⟨k, small⟩
    simp only [Fin.getElem_fin] at table
    rw [table]
    exact unpack_pack canonical (by omega)
  · rw [fullMantissa_value bounded, zpow_natCast]
    push_cast
    rw [← mul_pow]
    norm_num

/-! ## The nearest float -/

def decimalValue (n : ℕ) (e : ℤ) : ℚ :=
  n * 10 ^ e

theorem decimalValue_of_neg (n : ℕ) {e : ℤ} (negative : e < 0) :
    decimalValue n e = n / (10 ^ e.natAbs : ℕ) := by
  rw [decimalValue, div_eq_mul_inv]
  push_cast
  rw [← zpow_natCast, ← zpow_neg, show -(e.natAbs : ℤ) = e by omega]

theorem decimalValue_of_nonneg (n : ℕ) {e : ℤ} (nonneg : 0 ≤ e) :
    decimalValue n e = n * (10 ^ e.natAbs : ℕ) := by
  rw [decimalValue]
  push_cast
  rw [← zpow_natCast, show (e.natAbs : ℤ) = e by omega]

/-- What rounds to a float lies between half the smallest and twice the largest one. -/
theorem bounds_of_near {v : ℚ} (canonical : Canonical M E) (range : E ≤ 971)
    (near : RoundsTo M (narrowBelow M E) (v / 2 ^ E)) : 2 ^ (-1075 : ℤ) ≤ v ∧ v < 2 ^ (1024 : ℤ) := by
  have above := near.widen.above
  have below := near.below
  have unit : (0 : ℚ) < 2 ^ E := by positivity
  have one : (1 : ℚ) ≤ M := by exact_mod_cast canonical.positive
  have bounded : (M : ℚ) + 1 ≤ 2 ^ 53 := by exact_mod_cast canonical.bounded
  simp only [Bool.false_eq_true, if_false] at above
  rw [le_div_iff₀ unit] at above
  rw [div_le_iff₀ unit] at below
  constructor
  · have smallest : (2 : ℚ) ^ (-1074 : ℤ) ≤ 2 ^ E := zpow_le_zpow_right₀ (by norm_num) canonical.floor
    rw [show (-1075 : ℤ) = -1 + -1074 by norm_num, zpow_add₀ (by norm_num), zpow_neg_one]
    generalize (2 : ℚ) ^ (-1074 : ℤ) = least at smallest
    nlinarith
  · have largest : (2 : ℚ) ^ E ≤ 2 ^ (971 : ℤ) := zpow_le_zpow_right₀ (by norm_num) range
    rw [show (1024 : ℤ) = 53 + 971 by norm_num, zpow_add₀ (by norm_num)]
    generalize (2 : ℚ) ^ (971 : ℤ) = most at largest
    norm_num at bounded ⊢
    nlinarith

/-- A decimal in the neighbourhood of a float has no exponent that stands for an infinity. -/
theorem exponent_le_of_near {n : ℕ} {e : ℤ} (positive : 0 < n) (upper : decimalValue n e < 2 ^ (1024 : ℤ)) :
    e ≤ 2048 := by
  by_contra large
  have one : (1 : ℚ) ≤ n := by exact_mod_cast positive
  have power : (2 : ℚ) ^ (1024 : ℤ) ≤ 10 ^ e :=
    (zpow_le_zpow_left₀ (by norm_num) (by norm_num) (by norm_num)).trans
      (zpow_le_zpow_right₀ (by norm_num) (by omega : (1024 : ℤ) ≤ e))
  have whole : (10 : ℚ) ^ e ≤ decimalValue n e := le_mul_of_one_le_left (by positivity) one
  linarith

/-- Nor one that stands for zero: so small an exponent goes with a long mantissa. -/
theorem exponent_ge_of_near {n : ℕ} {e : ℤ} (lower : 2 ^ (-1075 : ℤ) ≤ decimalValue n e) :
    -(2048 + (n.log2 : ℤ)) ≤ e := by
  by_contra small
  have log : (n : ℚ) < 2 ^ ((n.log2 : ℤ) + 1) := by exact_mod_cast Nat.lt_log2_self
  have power : (10 : ℚ) ^ e ≤ 2 ^ e := by
    rw [show e = -((-e).toNat : ℤ) by omega, zpow_neg, zpow_neg, zpow_natCast, zpow_natCast]
    exact inv_anti₀ (by positivity) (pow_le_pow_left₀ (by norm_num) (by norm_num) _)
  have : decimalValue n e < 2 ^ (-1075 : ℤ) := by
    calc
      decimalValue n e < 2 ^ ((n.log2 : ℤ) + 1) * 2 ^ e :=
        mul_lt_mul log power (by positivity) (by positivity)
      _ = 2 ^ ((n.log2 : ℤ) + 1 + e) := (zpow_add₀ (by norm_num) _ _).symm
      _ ≤ 2 ^ (-1075 : ℤ) := zpow_le_zpow_right₀ (by norm_num) (by omega)
  linarith

theorem Exactly.div_eq {f g : UnpackedFloat} {a b : ℚ} (left : Exactly f a) (right : Exactly g b)
    (canonical : Canonical M E) (near : RoundsTo M (narrowBelow M E) (a / b / 2 ^ E)) :
    UnpackedFloat.div Format.binary64 f g = .finite .positive M E canonical.positive := by
  obtain ⟨m₁, e₁, h₁, rfl, -, rfl⟩ := left
  obtain ⟨m₂, e₂, h₂, rfl, -, rfl⟩ := right
  exact Decimal.div_eq canonical near

theorem Exactly.mul_eq {f g : UnpackedFloat} {a b : ℚ} (left : Exactly f a) (right : Exactly g b)
    (canonical : Canonical M E) (near : RoundsTo M (narrowBelow M E) (a * b / 2 ^ E)) :
    UnpackedFloat.mul Format.binary64 f g = .finite .positive M E canonical.positive := by
  obtain ⟨m₁, e₁, h₁, rfl, full₁, rfl⟩ := left
  obtain ⟨m₂, e₂, h₂, rfl, full₂, rfl⟩ := right
  exact Decimal.mul_eq canonical (by nlinarith) near

/-- As an unpacked float a decimal in the neighbourhood of a float is rounded to it. -/
theorem unpacked_ofScientific_eq {n : ℕ} {e : ℤ} (positive : 0 < n) (canonical : Canonical M E)
    (range : E ≤ 971) (near : RoundsTo M (narrowBelow M E) (decimalValue n e / 2 ^ E)) :
    UnpackedFloat.ofScientific Format.binary64 n e = .finite .positive M E canonical.positive := by
  -- The exponent is none of those that stand for zero or an infinity at once.
  obtain ⟨lower, upper⟩ := bounds_of_near canonical range near
  have small := exponent_le_of_near positive upper
  have large := exponent_ge_of_near lower
  simp only [UnpackedFloat.ofScientific]
  rw [dif_neg positive.ne', if_neg (by omega), if_neg (by omega)]
  by_cases negative : e < 0
  · rw [if_neg (by omega), div_eq canonical]
    · rfl
    · rw [decimalValue_of_neg n negative, show e.natAbs = (-e).toNat by omega] at near
      simpa using near
  · rw [if_pos (by omega), mul_eq canonical]
    · rfl
    · rw [Nat.shiftLeft_eq]
      have power : 0 < 10 ^ e.toNat := by positivity
      calc
        2 ^ 52 ≤ 1 * 2 ^ 53 * 1 := by norm_num
        _ ≤ n * 2 ^ Format.binary64.mantissaBits * 10 ^ e.toNat :=
          Nat.mul_le_mul (Nat.mul_le_mul positive (le_refl _)) power
    · rw [decimalValue_of_nonneg n (by omega), show e.natAbs = e.toNat by omega] at near
      have same : (((n <<< Format.binary64.mantissaBits : ℕ) : ℚ) * 2 ^ (-(Format.binary64.mantissaBits : ℤ))) = n := by
        rw [Nat.shiftLeft_eq, zpow_neg, zpow_natCast]
        push_cast
        field_simp
      rw [same, zpow_zero, mul_one]
      exact near

/-- A decimal in the neighbourhood of a float is rounded to it. -/
theorem ofScientific_eq {n : ℕ} {e : ℤ} (positive : 0 < n) (canonical : Canonical M E)
    (range : E ≤ 971) (near : RoundsTo M (narrowBelow M E) (decimalValue n e / 2 ^ E)) :
    Float.ofScientific n (e < 0) e.natAbs =
      .ofModel (.pack (.finite .positive M E canonical.positive)) := by
  unfold Float.ofScientific
  split
  · -- Both operands fit into fifty-three bits, so that only the operation rounds.
    rename_i fast
    have operand := exactly_toFloat positive fast.1
    have power := exactly_power (k := e.natAbs) (by simp [Float.exactlyRepresentablePowersOfTen]; omega)
    by_cases negative : e < 0
    · simp only [negative, decide_true, if_true]
      change Float.ofModel (.pack (UnpackedFloat.div Format.binary64 _ _)) = _
      rw [operand.div_eq power canonical]
      rw [decimalValue_of_neg n negative] at near
      exact_mod_cast near
    · simp only [negative, decide_false, Bool.false_eq_true, if_false]
      change Float.ofModel (.pack (UnpackedFloat.mul Format.binary64 _ _)) = _
      rw [operand.mul_eq power canonical]
      rw [decimalValue_of_nonneg n (by omega)] at near
      exact_mod_cast near
  · have signed : (if decide (e < 0) = true then Int.negOfNat e.natAbs else Int.ofNat e.natAbs) = e := by
      by_cases negative : e < 0
      · simp only [negative, decide_true, if_true, Int.negOfNat_eq, Int.ofNat_eq_natCast]
        omega
      · simp only [negative, decide_false, Bool.false_eq_true, if_false, Int.ofNat_eq_natCast]
        omega
    simp only [signed, Float.Model.ofScientific, unpacked_ofScientific_eq positive canonical range near]

/-- The numeral of a decimal in the neighbourhood of a float is read as that float. -/
theorem nearestFloat_eq {n digits : ℕ} {e : ℤ} (positive : 0 < n) (fits : n < 10 ^ digits)
    (finite : digits + e ≤ 400) (canonical : Canonical M E) (range : E ≤ 971)
    (near : RoundsTo M (narrowBelow M E) (decimalValue n e / 2 ^ E)) :
    nearestFloat n digits e = .ofModel (.pack (.finite .positive M E canonical.positive)) := by
  obtain ⟨lower, _⟩ := bounds_of_near canonical range near
  -- Below this guard the decimal would be less than half the smallest float.
  have seen : ¬digits + e < -400 := by
    intro tiny
    have fitsCast : (n : ℚ) < 10 ^ (digits : ℤ) := by exact_mod_cast fits
    have : decimalValue n e < 2 ^ (-1075 : ℤ) := by
      calc
        decimalValue n e < 10 ^ (digits : ℤ) * 10 ^ e := mul_lt_mul_of_pos_right fitsCast (by positivity)
        _ = 10 ^ (digits + e) := (zpow_add₀ (by norm_num) _ _).symm
        _ ≤ 10 ^ (-400 : ℤ) := zpow_le_zpow_right₀ (by norm_num) (by omega)
        _ ≤ 8 ^ (-400 : ℤ) := by
          rw [zpow_neg, zpow_neg]
          exact inv_anti₀ (by positivity) (zpow_le_zpow_left₀ (by norm_num) (by norm_num) (by norm_num))
        _ = 2 ^ (-1200 : ℤ) := by
          rw [show (8 : ℚ) = 2 ^ (3 : ℤ) by norm_num, ← zpow_mul, show (3 : ℤ) * -400 = -1200 by norm_num]
        _ ≤ 2 ^ (-1075 : ℤ) := zpow_le_zpow_right₀ (by norm_num) (by norm_num)
    linarith
  have guard : ¬(n == 0 || decide (digits + e < -400)) = true := by
    simp [positive.ne', seen]
  rw [nearestFloat, if_neg guard, if_neg (by omega)]
  exact ofScientific_eq positive canonical range near

/-! ## No numeral is read as a NaN -/

theorem roundWithAccuracy_ne_nan (sign : Sign) (m : ℕ) (e : ℤ) (accuracy : Accuracy) :
    roundWithAccuracy Format.binary64 sign m e accuracy ≠ .notANumber := by
  unfold roundWithAccuracy
  simp only
  split <;> simp

theorem mul_ne_nan {s₁ s₂ : Sign} {m₁ m₂ : ℕ} {e₁ e₂ : ℤ} {h₁ : 0 < m₁} {h₂ : 0 < m₂} :
    UnpackedFloat.mul Format.binary64 (.finite s₁ m₁ e₁ h₁) (.finite s₂ m₂ e₂ h₂) ≠ .notANumber :=
  roundWithAccuracy_ne_nan _ _ _ _

theorem div_ne_nan {s₁ s₂ : Sign} {m₁ m₂ : ℕ} {e₁ e₂ : ℤ} {h₁ : 0 < m₁} {h₂ : 0 < m₂} :
    UnpackedFloat.div Format.binary64 (.finite s₁ m₁ e₁ h₁) (.finite s₂ m₂ e₂ h₂) ≠ .notANumber :=
  roundWithAccuracy_ne_nan _ _ _ _

theorem isNumber_ofScientific (n : ℕ) (negative : Bool) (e : ℕ) :
    IsNumber (Float.ofScientific n negative e) := by
  unfold Float.ofScientific
  split
  · rename_i fast
    obtain ⟨m₂, e₂, h₂, operand₂, full₂, value₂⟩ :=
      exactly_power (k := e) (by simp [Float.exactlyRepresentablePowersOfTen]; omega)
    obtain rfl | positive := Nat.eq_zero_or_pos n
    · have operand₁ : (0 : ℕ).toUInt64.toFloat.toModel.unpack = .zero .positive := rfl
      cases negative
      · refine isNumber_pack (f := UnpackedFloat.mul Format.binary64 _ _) ?_
        rw [operand₁, operand₂]
        simp [UnpackedFloat.mul]
      · refine isNumber_pack (f := UnpackedFloat.div Format.binary64 _ _) ?_
        rw [operand₁, operand₂]
        simp [UnpackedFloat.div]
    · obtain ⟨m₁, e₁, h₁, operand₁, full₁, value₁⟩ := exactly_toFloat positive fast.1
      cases negative
      · refine isNumber_pack (f := UnpackedFloat.mul Format.binary64 _ _) ?_
        rw [operand₁, operand₂]
        exact mul_ne_nan
      · refine isNumber_pack (f := UnpackedFloat.div Format.binary64 _ _) ?_
        rw [operand₁, operand₂]
        exact div_ne_nan
  · apply isNumber_pack
    generalize (if negative = true then Int.negOfNat e else Int.ofNat e) = exponent
    unfold UnpackedFloat.ofScientific
    split_ifs
    · simp
    · simp
    · simp
    · exact mul_ne_nan
    · exact div_ne_nan

theorem isNumber_nearestFloat (n digits : ℕ) (e : ℤ) : IsNumber (nearestFloat n digits e) := by
  have zero : (0.0 : Float).toModel.unpack = .zero .positive := rfl
  have infinite : (1.0 / 0.0 : Float).toModel.unpack = .infinity .positive := rfl
  unfold nearestFloat
  split_ifs
  · rw [IsNumber, zero]
    simp
  · rw [IsNumber, infinite]
    simp
  · exact isNumber_ofScientific n _ _

end Folio.Decimal
