import DynLisp.Number.Shortest
import DynLisp.Proofs.Number.Rounding
import Mathlib.Data.Nat.Prime.Basic
import Mathlib.Data.Rat.Lemmas

/-! # Shortest decimals read back

The decimal chosen for a finite number is read back as this number, wherever it was found: a
neighbour on a grid is taken only if it reads back (`readsBack_of_neighbour?`), and every digit of the
number, which is written when no neighbour is, has the value of the number itself
(`magnitude_exactDecimal`). -/

namespace DynLisp.Binary64

/-! ### Every digit -/

/-- The denominator of a multiple of a power of two is a power of two. -/
theorem exists_den_scale (m : Nat) (e : Int) : ∃ k, (scale m e).den = 2 ^ k := by
  rcases le_total 0 e with he | he
  · obtain ⟨n, rfl⟩ := Int.eq_ofNat_of_zero_le he
    have whole : scale m n = (m * 2 ^ n : Nat) := by
      rw [scale, zpow_natCast]
      push_cast
      rfl
    exact ⟨0, by rw [whole, Rat.den_natCast, pow_zero]⟩
  · obtain ⟨n, hn⟩ := Int.eq_ofNat_of_zero_le (by omega : 0 ≤ -e)
    have quotient : scale m e = Rat.divInt m (2 ^ n : Nat) := by
      rw [scale, ← neg_neg e, hn, zpow_neg, zpow_natCast, Rat.divInt_eq_div, div_eq_mul_inv]
      push_cast
      rfl
    have divides : (scale m e).den ∣ 2 ^ n := by
      rw [quotient]
      exact_mod_cast Rat.den_dvd m (2 ^ n : Nat)
    obtain ⟨k, -, hk⟩ := (Nat.dvd_prime_pow Nat.prime_two).1 divides
    exact ⟨k, hk⟩

/-- A nonnegative binary fraction is a natural number over a power of ten. -/
theorem mul_ten_pow_log2_den {r : Rat} (hr : 0 ≤ r) {k : Nat} (hk : r.den = 2 ^ k) :
    r * 10 ^ r.den.log2 = (r.num.toNat * 5 ^ k : Nat) := by
  have numerator : ((r.num.toNat : Int) : Rat) = r.num := by
    rw [Int.toNat_of_nonneg (Rat.num_nonneg.2 hr)]
  have value : r = r.num / 2 ^ k := by
    have := Rat.num_div_den r
    rw [hk] at this
    push_cast at this
    exact this.symm
  have two_pow : (2 : Rat) ^ k ≠ 0 := by positivity
  rw [hk, Nat.log2_two_pow]
  push_cast
  push_cast at numerator
  rw [numerator]
  calc r * 10 ^ k = r.num / 2 ^ k * (2 * 5) ^ k := by rw [← value]; norm_num
    _ = r.num * 5 ^ k := by
        rw [mul_pow]
        field_simp

theorem magnitudeOf_nonneg (p : Nat) : 0 ≤ magnitudeOf p := by
  unfold magnitudeOf scale
  split <;> positivity

theorem magnitudeOf_pos {p : Nat} (hp : 0 < p) : 0 < magnitudeOf p := by
  unfold magnitudeOf
  split
  · exact scale_pos hp _
  · exact scale_pos (Nat.add_pos_left (by decide) _) _

theorem exists_den_magnitudeOf (p : Nat) : ∃ k, (magnitudeOf p).den = 2 ^ k := by
  unfold magnitudeOf
  split <;> exact exists_den_scale _ _

/-- Every digit of a number together are the number. -/
theorem magnitude_exactDecimal (negative : Bool) (p : Nat) :
    (exactDecimal negative p).magnitude = magnitudeOf p := by
  obtain ⟨k, hk⟩ := exists_den_magnitudeOf p
  have whole := mul_ten_pow_log2_den (magnitudeOf_nonneg p) hk
  have coefficient : ((exactDecimal negative p).coefficient : Rat) =
      magnitudeOf p * 10 ^ (magnitudeOf p).den.log2 := by
    simp only [exactDecimal]
    rw [whole, Rat.num_natCast, Int.toNat_natCast]
  unfold Decimal.magnitude
  rw [coefficient]
  simp only [exactDecimal]
  rw [zpow_neg, zpow_natCast, mul_assoc, mul_inv_cancel₀ (by positivity), mul_one]

theorem pattern_exactDecimal (negative : Bool) {p : Nat} (hp : 0 < p) (hinf : p < infinityPattern) :
    (exactDecimal negative p).pattern = p := by
  have value := magnitude_exactDecimal negative p
  have nonzero : (exactDecimal negative p).coefficient ≠ 0 := by
    rw [Ne, ← Decimal.magnitude_eq_zero_iff, value]
    exact (magnitudeOf_pos hp).ne'
  rw [Decimal.pattern_eq_nearestPattern nonzero, value, nearestPattern_magnitudeOf hp hinf]

/-! ### Neighbours -/

/-- Only what reads back is a neighbour. -/
theorem readsBack_of_neighbour? {p c : Nat} {g : Int} (h : neighbour? p g = some c) :
    readsBack p c g := by
  unfold neighbour? at h
  dsimp only at h
  generalize (if nearestNat _ = _ then _ else _) = far at h
  split at h
  · rename_i back
    exact Option.some.inj h ▸ back
  · split at h
    · rename_i back
      exact Option.some.inj h ▸ back
    · cases h

/-- Where the shortest decimal comes from: zero, a neighbour on a grid, or every digit. -/
theorem shortest_cases (x : Float) :
    (pattern x = 0 ∧ shortest x = ⟨isNegative x, 0, 0⟩) ∨
    (∃ c g, neighbour? (pattern x) g = some c ∧ shortest x = ⟨isNegative x, c, g⟩) ∨
    (pattern x ≠ 0 ∧ shortest x = exactDecimal (isNegative x) (pattern x)) := by
  unfold shortest
  dsimp only
  split
  · rename_i zero
    exact .inl ⟨zero, rfl⟩
  · rename_i nonzero
    cases found : (List.range 20).findSome? fun k : Nat =>
        (neighbour? (pattern x) (ceilingExponent (pattern x) - k)).map
          fun c => (⟨isNegative x, c, ceilingExponent (pattern x) - k⟩ : Decimal) with
    | none => exact .inr (.inr ⟨nonzero, rfl⟩)
    | some d =>
        obtain ⟨k, -, onGrid⟩ := List.exists_of_findSome?_eq_some found
        obtain ⟨c, neighbour, rfl⟩ := Option.map_eq_some_iff.1 onGrid
        exact .inr (.inl ⟨c, _, neighbour, rfl⟩)

theorem negative_shortest (x : Float) : (shortest x).negative = isNegative x := by
  obtain ⟨-, e⟩ | ⟨c, g, -, e⟩ | ⟨-, e⟩ := shortest_cases x <;> rw [e]
  rfl

/-- The shortest decimal of a finite number reads back as its pattern. -/
theorem pattern_shortest {x : Float} (h : pattern x < infinityPattern) :
    (shortest x).pattern = pattern x := by
  obtain ⟨zero, e⟩ | ⟨c, g, neighbour, e⟩ | ⟨nonzero, e⟩ := shortest_cases x
  · rw [e, zero]
    rfl
  · have back := readsBack_of_neighbour? neighbour
    rw [readsBack, beq_iff_eq] at back
    rw [e]
    exact back
  · rw [e, pattern_exactDecimal _ (Nat.pos_of_ne_zero nonzero) h]

/-- A finite number is read back from its shortest decimal. -/
theorem toFloat_shortest {x : Float} (h : pattern x < infinityPattern) :
    (shortest x).toFloat = ofPattern (isNegative x) (pattern x) := by
  rw [Decimal.toFloat, negative_shortest, pattern_shortest h]

end DynLisp.Binary64
