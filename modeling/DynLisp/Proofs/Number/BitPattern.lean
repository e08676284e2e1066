import DynLisp.Number.Binary64
import Mathlib

/-! # Numbers and their bit patterns

A binary64 number is given by its bits: a sign, eleven bits of an exponent field and fifty-two of a
fraction.  So a number is determined by its sign and its pattern (`ofPattern_pattern`), and the
pattern tells the finite numbers, the infinities and NaN apart (`isInf_iff`, `isNaN_iff`). -/

namespace DynLisp.Binary64

open Float.Model Float.Model.UnpackedFloat

/-- A number is given by its sign and its pattern. -/
theorem ofPattern_pattern (x : Float) : ofPattern (isNegative x) (pattern x) = x := by
  have bits : pattern x + (if isNegative x then signBit else 0) = x.toBits.toNat := by
    have := x.toBits.toNat_lt
    by_cases negative : signBit ≤ x.toBits.toNat
    · simp only [pattern, isNegative, negative, decide_true, if_true]
      unfold signBit at *
      omega
    · simp only [pattern, isNegative, negative, decide_false]
      unfold signBit at *
      simp only [Bool.false_eq_true, if_false]
      omega
  rw [ofPattern, bits, UInt64.ofNat_toNat, Float.ofBits_toBits]

/-! ### Fields -/

theorem toNat_unpackMantissa (b : BitVec 64) :
    (@unpackMantissa .binary64 b).toNat = b.toNat % 2 ^ 52 := by
  simp [unpackMantissa, BitVec.extractLsb, BitVec.extractLsb']

theorem toNat_unpackExponent (b : BitVec 64) :
    (@unpackExponent .binary64 b).toNat = b.toNat / 2 ^ 52 % 2 ^ 11 := by
  simp [unpackExponent, BitVec.extractLsb, BitVec.extractLsb', Nat.shiftRight_eq_div_pow]

/-- The pattern is the exponent field followed by the fraction. -/
theorem pattern_eq (x : Float) :
    pattern x = (@unpackExponent .binary64 x.toBits.toBitVec).toNat * binade +
      (@unpackMantissa .binary64 x.toBits.toBitVec).toNat := by
  have bound := x.toBits.toNat_lt
  rw [toNat_unpackExponent, toNat_unpackMantissa, pattern, ← UInt64.toNat_toBitVec]
  rw [← UInt64.toNat_toBitVec] at bound
  unfold signBit binade
  omega

/-! ### Infinity and NaN -/

theorem isInf_unpack (b : BitVec 64) : (UnpackedFloat.unpack .binary64 b).isInf ↔
    @unpackExponent .binary64 b = -1#11 ∧ @unpackMantissa .binary64 b = 0#52 := by
  unfold UnpackedFloat.unpack
  dsimp only
  split
  · split <;> simp_all [UnpackedFloat.isInf]
  · split
    · split <;> simp_all [UnpackedFloat.isInf]
    · simp_all [UnpackedFloat.isInf]

theorem isNaN_unpack (b : BitVec 64) : (UnpackedFloat.unpack .binary64 b).isNaN ↔
    @unpackExponent .binary64 b = -1#11 ∧ @unpackMantissa .binary64 b ≠ 0#52 := by
  unfold UnpackedFloat.unpack
  dsimp only
  split
  · split <;> simp_all [UnpackedFloat.isNaN]
  · split
    · split <;> simp_all [UnpackedFloat.isNaN]
    · simp_all [UnpackedFloat.isNaN]

/-- The exponent field is full exactly from the pattern of infinity on. -/
theorem infinityPattern_le_pattern_iff (x : Float) : infinityPattern ≤ pattern x ↔
    @unpackExponent .binary64 x.toBits.toBitVec = -1#11 := by
  have exponent := (@unpackExponent .binary64 x.toBits.toBitVec).isLt
  have fraction := (@unpackMantissa .binary64 x.toBits.toBitVec).isLt
  have full : (-1#11).toNat = 2047 := rfl
  rw [pattern_eq, BitVec.toNat_eq, full]
  unfold infinityPattern binade
  simp only at exponent fraction
  omega

/-- Infinity alone has a full exponent field and no fraction. -/
theorem pattern_eq_infinityPattern_iff (x : Float) : pattern x = infinityPattern ↔
    @unpackExponent .binary64 x.toBits.toBitVec = -1#11 ∧
      @unpackMantissa .binary64 x.toBits.toBitVec = 0#52 := by
  have fraction := (@unpackMantissa .binary64 x.toBits.toBitVec).isLt
  have exponent := (@unpackExponent .binary64 x.toBits.toBitVec).isLt
  have full : (-1#11).toNat = 2047 := rfl
  have none : (0#52).toNat = 0 := rfl
  rw [pattern_eq, BitVec.toNat_eq, BitVec.toNat_eq, full, none]
  unfold infinityPattern binade
  simp only at exponent fraction
  omega

theorem isInf_iff (x : Float) : x.isInf ↔ pattern x = infinityPattern := by
  have model : x.isInf = (UnpackedFloat.unpack .binary64 x.toBits.toBitVec).isInf := rfl
  rw [model, isInf_unpack, pattern_eq_infinityPattern_iff]

theorem isNaN_iff (x : Float) : x.isNaN ↔ infinityPattern < pattern x := by
  have model : x.isNaN = (UnpackedFloat.unpack .binary64 x.toBits.toBitVec).isNaN := rfl
  rw [model, isNaN_unpack, Nat.lt_iff_le_and_ne, infinityPattern_le_pattern_iff]
  constructor
  · rintro ⟨full, some⟩
    exact ⟨full, fun h => some ((pattern_eq_infinityPattern_iff x).1 h.symm).2⟩
  · rintro ⟨full, other⟩
    exact ⟨full, fun h => other ((pattern_eq_infinityPattern_iff x).2 ⟨full, h⟩).symm⟩

/-- There is one NaN. -/
theorem eq_nan_of_isNaN {x : Float} (h : x.isNaN) : x = nan := by
  have only : nan.isNaN := by decide +kernel
  rw [Float.isNaN_eq_decide_eq_nan, decide_eq_true_eq] at h only
  rw [h, only]

end DynLisp.Binary64
