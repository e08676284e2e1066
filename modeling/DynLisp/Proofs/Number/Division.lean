import DynLisp.Rule.Arithmetic
import DynLisp.Proofs.Number.BitPattern

/-! # Division by zero

The division of the arithmetic operators treats zero divisors apart.  What it gives for them is what the
division of IEEE 754 gives (`divide_eq_div`): NaN for a zero or NaN dividend, and otherwise an infinity
with the product of the signs (`div_of_zero`).  The sign that counts is the sign bit, which is unpacked
with everything but NaN (`isNegative_of_unpackedSign`). -/

namespace DynLisp

open Float.Model Float.Model.UnpackedFloat

namespace Binary64

/-! ### Signs and zeros -/

theorem toNat_unpackSign (b : BitVec 64) :
    (@unpackSign .binary64 b).toNat = b.toNat / 2 ^ 63 % 2 := by
  simp [unpackSign, BitVec.extractLsb, BitVec.extractLsb', Nat.shiftRight_eq_div_pow]

theorem isNegative_iff_unpackSign (x : Float) :
    isNegative x = true ↔ @unpackSign .binary64 x.toBits.toBitVec = 1#1 := by
  have bound := x.toBits.toNat_lt
  have one : (1#1).toNat = 1 := rfl
  rw [BitVec.toNat_eq, toNat_unpackSign, one, isNegative, decide_eq_true_iff, ← UInt64.toNat_toBitVec]
  rw [← UInt64.toNat_toBitVec] at bound
  unfold signBit
  omega

/-- The sign of what is unpacked, unless it is NaN. -/
def unpackedSign : UnpackedFloat → Option Sign
  | .infinity s | .zero s | .finite s _ _ _ => some s
  | .notANumber => none

/-- The sign that is unpacked is that of the sign bit. -/
theorem isNegative_of_unpackedSign {x : Float} {s : Sign}
    (h : unpackedSign x.toModel.unpack = some s) : isNegative x = (s == .negative) := by
  have sign : s = .ofBitVec (@unpackSign .binary64 x.toBits.toBitVec) := by
    unfold Float.Model.unpack UnpackedFloat.unpack at h
    dsimp only at h
    split at h
    · split at h
      · exact (Option.some.inj h).symm
      · cases h
    · split at h
      · split at h <;> exact (Option.some.inj h).symm
      · exact (Option.some.inj h).symm
  rw [Bool.eq_iff_iff, isNegative_iff_unpackSign, sign, beq_iff_eq]
  rcases BitVec.eq_zero_or_eq_one (@unpackSign .binary64 x.toBits.toBitVec) with zero | one
  · simp [zero, Sign.ofBitVec]
  · simp [one, Sign.ofBitVec]

/-- The numbers that equal zero are those of which a zero is unpacked. -/
theorem beq_zero_iff {x : Float} : (x == 0) = true ↔ ∃ s, x.toModel.unpack = .zero s := by
  have zero : (0 : Float).toModel.unpack = .zero .positive := rfl
  have model : (x == 0) = x.toModel.unpack.beq (0 : Float).toModel.unpack := rfl
  rw [model, zero]
  cases x.toModel.unpack with
  | zero s => simp [UnpackedFloat.beq, UnpackedFloat.compare]
  | notANumber => simp [UnpackedFloat.beq, UnpackedFloat.compare]
  | infinity s => cases s <;> simp [UnpackedFloat.beq, UnpackedFloat.compare]
  | finite s m e h => cases s <;> simp [UnpackedFloat.beq, UnpackedFloat.compare]

/-! ### Zero divisors -/

theorem nan_eq : nan = .ofModel (.pack .notANumber) := by decide +kernel

/-- The infinity with the product of two signs. -/
theorem infinity_eq (s t : Sign) :
    infinity ((s == .negative) != (t == .negative)) = .ofModel (.pack (.infinity (s / t))) := by
  cases s <;> cases t <;> decide +kernel

/-- What dividing by a zero gives: NaN for a zero or NaN dividend, otherwise an infinity with the
product of the signs. -/
theorem div_of_zero {a b : Float} (zero : (b == 0) = true) :
    a / b = if a == 0 || a.isNaN then nan else infinity (isNegative a != isNegative b) := by
  obtain ⟨t, divisor⟩ := beq_zero_iff.1 zero
  have quotient : a / b = .ofModel (.pack (UnpackedFloat.div .binary64 a.toModel.unpack (.zero t))) := by
    rw [← divisor]
    rfl
  have isNaN : a.isNaN = a.toModel.unpack.isNaN := rfl
  have signs {s : Sign} (h : unpackedSign a.toModel.unpack = some s) :
      infinity (isNegative a != isNegative b) = .ofModel (.pack (.infinity (s / t))) := by
    rw [isNegative_of_unpackedSign h, isNegative_of_unpackedSign (x := b) (s := t) (by rw [divisor]; rfl),
      infinity_eq]
  have nonzero (h : ∀ s, a.toModel.unpack ≠ .zero s) : (a == 0) = false :=
    Bool.eq_false_iff.2 fun zero => (beq_zero_iff.1 zero).elim h
  rw [quotient, isNaN]
  cases dividend : a.toModel.unpack with
  | notANumber =>
      simp only [UnpackedFloat.isNaN, Bool.or_true, if_true, nan_eq]
      rfl
  | zero s =>
      simp only [beq_zero_iff.2 ⟨s, dividend⟩, Bool.true_or, if_true, nan_eq]
      rfl
  | infinity s =>
      rw [nonzero (by simp [dividend]), signs (s := s) (by rw [dividend]; rfl)]
      rfl
  | finite s m e h =>
      rw [nonzero (by simp [dividend]), signs (s := s) (by rw [dividend]; rfl)]
      rfl

end Binary64

/-- The division of the arithmetic operators is the division of binary64 numbers. -/
theorem Arithmetic.divide_eq_div (a b : Float) : divide a b = a / b := by
  unfold divide
  split
  · rename_i zero
    exact (Binary64.div_of_zero zero).symm
  · rfl

end DynLisp
