import Mathlib
import Folio.Decimal.Binary
import Folio.Proofs.Decimal.Rounding

/-!
# Floats and their bits

A float is held as bits.  The logical model unpacks them into a sign, a mantissa and an
exponent, and packs a result again; `Reading.ofFloat` takes the same bits apart by
division.  The three agree: packing undoes unpacking, unpacking undoes packing for every
mantissa that is at its place, and a reading says what unpacking gives.
-/

namespace Folio.Decimal

open Float.Model
open Float.Model.UnpackedFloat (Sign packComponents packComponents_unpackSign_unpackExponent_unpackMantissa)

/-! ## Packing -/

theorem toNat_packComponents (sign : Sign) (exponent : BitVec 11) (mantissa : BitVec 52) :
    (packComponents Format.binary64 sign exponent mantissa).toNat =
      sign.toBitVec.toNat * 2 ^ 63 + exponent.toNat * 2 ^ 52 + mantissa.toNat := by
  have exponentBound := exponent.isLt
  have mantissaBound := mantissa.isLt
  simp only [packComponents, BitVec.toNat_append]
  rw [← Nat.shiftLeft_add_eq_or_of_lt exponentBound, ← Nat.shiftLeft_add_eq_or_of_lt mantissaBound,
    Nat.shiftLeft_eq, Nat.shiftLeft_eq]
  ring

theorem toNat_implicitBit (mantissa : BitVec 52) : (1#1 ++ mantissa).toNat = 2 ^ 52 + mantissa.toNat := by
  rw [BitVec.toNat_append, ← Nat.shiftLeft_add_eq_or_of_lt mantissa.isLt, Nat.shiftLeft_eq]
  rfl

/-- A float of full mantissa is packed without its leading bit. -/
theorem pack_normal {sign : Sign} {M : ℕ} {E : ℤ} (positive : 0 < M) (full : 2 ^ 52 ≤ M)
    (bounded : M < 2 ^ 53) (floor : -1074 ≤ E) (range : E ≤ 971) :
    UnpackedFloat.pack Format.binary64 (.finite sign M E positive) =
      packComponents Format.binary64 sign (BitVec.ofNat 11 (E + 1075).toNat) (BitVec.ofNat 52 M) := by
  have bits : M.log2 = 52 := (Nat.log2_eq_iff positive.ne').2 ⟨full, bounded⟩
  have biased : E + 1023 + 52 = E + 1075 := by omega
  simp only [UnpackedFloat.pack, Format.exponentBias, Format.mantissaBits, bits]
  norm_num only
  rw [biased, if_neg (by omega)]
  simp

/-- A float of fewer bits is packed as it is, at the exponent zero. -/
theorem pack_subnormal {sign : Sign} {M : ℕ} (positive : 0 < M) (short : M < 2 ^ 52) :
    UnpackedFloat.pack Format.binary64 (.finite sign M (-1074) positive) =
      packComponents Format.binary64 sign 0#11 (BitVec.ofNat 52 M) := by
  have bits : M.log2 < 52 := (Nat.log2_lt positive.ne').2 short
  simp only [UnpackedFloat.pack, Format.exponentBias, Format.mantissaBits]
  norm_num only
  rw [if_neg (by omega), if_neg (by omega)]

/-- What unpacking makes of the three fields. -/
theorem unpack_packComponents (sign : Sign) (exponent : BitVec 11) (mantissa : BitVec 52) :
    UnpackedFloat.unpack Format.binary64 (packComponents Format.binary64 sign exponent mantissa) =
      if exponent.toNat = 2047 then (if mantissa.toNat = 0 then .infinity sign else .notANumber)
      else if exponent.toNat = 0 then
        if h : mantissa.toNat = 0 then .zero sign
        else .finite sign mantissa.toNat (-1074) (Nat.pos_of_ne_zero h)
      else .finite sign (2 ^ 52 + mantissa.toNat) (exponent.toNat - 1075) (by omega) := by
  have ones : exponent = -1#11 ↔ exponent.toNat = 2047 := by
    rw [← BitVec.toNat_inj]; rfl
  have zeros : exponent = 0#11 ↔ exponent.toNat = 0 := by
    rw [← BitVec.toNat_inj]; rfl
  have none : mantissa = 0#52 ↔ mantissa.toNat = 0 := by
    rw [← BitVec.toNat_inj]; rfl
  simp only [UnpackedFloat.unpack, UnpackedFloat.unpackMantissa_packComponents,
    UnpackedFloat.unpackExponent_packComponents, UnpackedFloat.unpackSign_packComponents, Sign.ofBitVec_toBitVec, ones,
    zeros, none, toNat_implicitBit, Format.exponentBias]
  split
  · rfl
  · split
    · rename_i zero
      simp [zero]
    · simp

/-- The unpacked float of a mantissa and exponent that are at their place and in range is
what was packed. -/
theorem unpack_pack {sign : Sign} {M : ℕ} {E : ℤ} (canonical : Canonical M E) (range : E ≤ 971) :
    (Float.Model.pack (.finite sign M E canonical.positive)).unpack =
      .finite sign M E canonical.positive := by
  obtain ⟨positive, bounded, floor, normal⟩ := canonical
  change UnpackedFloat.unpack Format.binary64 (UnpackedFloat.pack Format.binary64 _) = _
  by_cases full : 2 ^ 52 ≤ M
  · have exponent : (BitVec.ofNat 11 (E + 1075).toNat).toNat = (E + 1075).toNat := by
      rw [BitVec.toNat_ofNat, Nat.mod_eq_of_lt (by omega)]
    have mantissa : 2 ^ 52 + (BitVec.ofNat 52 M).toNat = M := by
      rw [BitVec.toNat_ofNat]; omega
    rw [pack_normal positive full bounded floor range, unpack_packComponents]
    simp only [exponent, mantissa]
    rw [if_neg (by omega), if_neg (by omega)]
    congr 1
    omega
  · obtain rfl := normal.resolve_left full
    have mantissa : (BitVec.ofNat 52 M).toNat = M := by
      rw [BitVec.toNat_ofNat, Nat.mod_eq_of_lt (by omega)]
    rw [pack_subnormal positive (by omega), unpack_packComponents]
    simp [mantissa, positive.ne']

/-! ## Floats -/

section Floats

variable {x : Float} {sign : Sign} {exponent : BitVec 11} {mantissa : BitVec 52}

theorem exists_fields (x : Float) : ∃ (sign : Sign) (exponent : BitVec 11) (mantissa : BitVec 52),
    x.toModel.toBits.toBitVec = packComponents Format.binary64 sign exponent mantissa :=
  ⟨_, _, _, (@packComponents_unpackSign_unpackExponent_unpackMantissa Format.binary64 x.toModel.toBits.toBitVec).symm⟩

/-- A mantissa and exponent that unpacking gives are at their place and in range. -/
theorem canonical_of_unpack {M : ℕ} {E : ℤ} {positive : 0 < M}
    (unpacked : x.toModel.unpack = .finite sign M E positive) : Canonical M E ∧ E ≤ 971 := by
  obtain ⟨sign', exponent, mantissa, fields⟩ := exists_fields x
  have exponentBound := exponent.isLt
  have mantissaBound := mantissa.isLt
  rw [Float.Model.unpack, fields, unpack_packComponents] at unpacked
  split at unpacked
  · split at unpacked <;> cases unpacked
  · split at unpacked
    · split at unpacked
      · cases unpacked
      · cases unpacked
        exact ⟨⟨positive, by omega, le_refl _, .inr rfl⟩, by omega⟩
    · cases unpacked
      refine ⟨⟨positive, ?_, ?_, .inl ?_⟩, ?_⟩ <;> omega

/-- Packing undoes unpacking. -/
theorem pack_unpack (x : Float) : Float.ofModel (.pack x.toModel.unpack) = x := by
  have same : UnpackedFloat.pack Format.binary64 x.toModel.unpack = x.toModel.toBits.toBitVec :=
    UnpackedFloat.pack_unpack_of_valid x.toModel.valid
  obtain ⟨bits, valid⟩ := x
  simp only [Float.Model.pack, same]

def Reading.ofUnpacked : UnpackedFloat → Reading
  | .notANumber => .nan
  | .infinity sign => .infinite (sign == .negative)
  | .zero sign => .finite (sign == .negative) ⟨0, -1074, false⟩
  | .finite sign M E _ => .finite (sign == .negative) ⟨M, E, narrowBelow M E⟩

/-- A float's reading says what unpacking gives. -/
theorem reading_eq (x : Float) : Reading.ofFloat x = .ofUnpacked x.toModel.unpack := by
  obtain ⟨sign, exponent, mantissa, fields⟩ := exists_fields x
  have exponentBound := exponent.isLt
  have mantissaBound := mantissa.isLt
  have bits : x.toBits.toNat =
      sign.toBitVec.toNat * 2 ^ 63 + exponent.toNat * 2 ^ 52 + mantissa.toNat := by
    rw [← toNat_packComponents, ← fields]
    rfl
  have signBit : (x.toBits.toNat / 2 ^ 63 == 1) = (sign == .negative) := by
    rw [show x.toBits.toNat / 2 ^ 63 = sign.toBitVec.toNat by rw [bits]; omega]
    cases sign <;> rfl
  have exponentBits : x.toBits.toNat / 2 ^ 52 % 2 ^ 11 = exponent.toNat := by
    rw [bits]; omega
  have mantissaBits : x.toBits.toNat % 2 ^ 52 = mantissa.toNat := by
    rw [bits]; omega
  rw [Float.Model.unpack, fields, unpack_packComponents]
  simp only [Reading.ofFloat, twoTo, Nat.pow_eq, signBit, exponentBits, mantissaBits, beq_iff_eq]
  by_cases top : exponent.toNat = 2047
  · by_cases none : mantissa.toNat = 0 <;> simp [top, none, Reading.ofUnpacked]
  · by_cases zero : exponent.toNat = 0
    · by_cases none : mantissa.toNat = 0 <;> simp [zero, none, Reading.ofUnpacked, narrowBelow]
    · simp only [top, zero, if_false, Reading.ofUnpacked, narrowBelow, Reading.finite.injEq,
        Binary.mk.injEq, true_and]
      rw [Bool.eq_iff_iff]
      simp only [Bool.and_eq_true, beq_iff_eq, decide_eq_true_eq]
      omega

def IsNumber (x : Float) : Prop :=
  x.toModel.unpack ≠ .notANumber

/-- What is packed from a number is a number. -/
theorem isNumber_pack {f : UnpackedFloat} (number : f ≠ .notANumber) :
    IsNumber (.ofModel (.pack f)) := by
  change UnpackedFloat.unpack Format.binary64 (UnpackedFloat.pack Format.binary64 f) ≠ _
  cases f with
  | notANumber => contradiction
  | infinity sign =>
    rw [UnpackedFloat.pack, UnpackedFloat.packedInfinity, unpack_packComponents]
    simp
  | zero sign =>
    rw [UnpackedFloat.pack, UnpackedFloat.packedZero, unpack_packComponents]
    simp
  | finite sign M E positive =>
    simp only [UnpackedFloat.pack]
    split
    · rw [UnpackedFloat.packedInfinity, unpack_packComponents]
      simp
    · rename_i small
      split
      · rw [unpack_packComponents, if_neg (by rw [BitVec.toNat_ofNat]; omega)]
        split
        · split <;> simp
        · simp
      · rw [unpack_packComponents]
        simp only [BitVec.toNat_ofNat, Nat.zero_mod, if_true]
        split
        · contradiction
        · split <;> simp

theorem IsNumber.neg (number : IsNumber x) : IsNumber (-x) := by
  apply isNumber_pack
  unfold IsNumber at number
  cases unpacked : x.toModel.unpack with
  | notANumber => contradiction
  | infinity sign | zero sign | finite sign M E positive => simp [UnpackedFloat.neg]

/-- A number equals itself. -/
theorem IsNumber.beq_self (number : IsNumber x) : (x == x) = true := by
  change x.toModel.unpack.beq x.toModel.unpack = true
  exact (UnpackedFloat.beq_iff_ne_notANumber_and_eq _ _).2 ⟨number, number, .inl rfl⟩

end Floats

end Folio.Decimal
