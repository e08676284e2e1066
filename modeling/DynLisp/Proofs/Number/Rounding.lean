import DynLisp.Number.Binary64
import Mathlib.Algebra.Order.Field.Power
import Mathlib.Data.Rat.Cast.Order
import Mathlib.Tactic.FieldSimp
import Mathlib.Tactic.Linarith
import Mathlib.Tactic.NormNum
import Mathlib.Tactic.Positivity
import Mathlib.Tactic.Ring

/-! # Rounding

What reading a decimal numeral does to its value:

* `unitExponent_eq_iff`: the unit of a number near `r` is the one power of two that leaves at most 53
  binary digits before the point, and exactly 53 above the least unit;
* `nearestPattern_magnitudeOf`: a number that a pattern stands for is rounded to this pattern;
* `pattern_eq_of_magnitude_eq`: the pattern read depends on nothing but the value written, although
  reading settles very great and very small numerals by their digits alone. -/

namespace DynLisp.Binary64

/-! ### Powers of two -/

theorem two_zpow_pos (e : Int) : (0 : Rat) < 2 ^ e := by positivity

theorem two_zpow_add (a b : Int) : (2 : Rat) ^ (a + b) = 2 ^ a * 2 ^ b :=
  zpow_add₀ (by norm_num) a b

theorem two_zpow_lt_iff {a b : Int} : (2 : Rat) ^ a < 2 ^ b ↔ a < b :=
  zpow_lt_zpow_iff_right₀ (by norm_num)

theorem two_zpow_le_iff {a b : Int} : (2 : Rat) ^ a ≤ 2 ^ b ↔ a ≤ b :=
  zpow_le_zpow_iff_right₀ (by norm_num)

/-- Scaling by a power of two and back. -/
theorem mul_two_zpow_neg_lt_iff {r : Rat} {e : Int} {n : Nat} :
    r * 2 ^ (-e) < (2 ^ n : Nat) ↔ r < 2 ^ (e + n) := by
  rw [zpow_neg, ← div_eq_mul_inv, div_lt_iff₀ (two_zpow_pos e), add_comm e, two_zpow_add, zpow_natCast]
  push_cast
  rfl

theorem le_mul_two_zpow_neg_iff {r : Rat} {e : Int} {n : Nat} :
    (2 ^ n : Nat) ≤ r * 2 ^ (-e) ↔ 2 ^ (e + n) ≤ r := by
  rw [zpow_neg, ← div_eq_mul_inv, le_div_iff₀ (two_zpow_pos e), add_comm e, two_zpow_add, zpow_natCast]
  push_cast
  rfl

theorem two_pow_log2_le {n : Nat} (hn : n ≠ 0) : (2 : Rat) ^ (n.log2 : Int) ≤ n := by
  rw [zpow_natCast]
  exact_mod_cast Nat.log2_self_le hn

theorem lt_two_pow_log2 (n : Nat) : (n : Rat) < 2 ^ (n.log2 + 1 : Int) := by
  have : (n : Rat) < 2 ^ (n.log2 + 1) := by exact_mod_cast Nat.lt_log2_self
  exact_mod_cast this

theorem binade_eq : binade = 2 ^ 52 := rfl

theorem two_mul_binade : 2 * binade = 2 ^ 53 := rfl

/-! ### Magnitude in binary digits -/

/-- Numerator and denominator give the binary logarithm up to one. -/
theorem log2_bounds {r : Rat} (hr : 0 < r) :
    (2 : Rat) ^ ((r.num.toNat.log2 : Int) - r.den.log2 - 1) < r ∧
      r < 2 ^ ((r.num.toNat.log2 : Int) - r.den.log2 + 1) := by
  have hnum : 0 < r.num := Rat.num_pos.2 hr
  have value : r = (r.num.toNat : Rat) / r.den := by
    have cast : ((r.num.toNat : Int) : Rat) = r.num := by rw [Int.toNat_of_nonneg hnum.le]
    rw [← Int.cast_natCast r.num.toNat, cast, Rat.num_div_den]
  have den_pos : (0 : Rat) < r.den := by exact_mod_cast r.den_pos
  have num_low := two_pow_log2_le (n := r.num.toNat) (by omega)
  have num_high := lt_two_pow_log2 r.num.toNat
  have den_low := two_pow_log2_le r.den_ne_zero
  have den_high := lt_two_pow_log2 r.den
  generalize r.num.toNat = n at *
  generalize r.den = k at *
  constructor
  · rw [value, lt_div_iff₀ den_pos]
    calc (2 : Rat) ^ ((n.log2 : Int) - k.log2 - 1) * k
        < 2 ^ ((n.log2 : Int) - k.log2 - 1) * 2 ^ (k.log2 + 1 : Int) :=
          mul_lt_mul_of_pos_left den_high (two_zpow_pos _)
      _ = 2 ^ (n.log2 : Int) := by
          rw [← two_zpow_add]
          congr 1
          ring
      _ ≤ n := num_low
  · rw [value, div_lt_iff₀ den_pos]
    calc (n : Rat) < 2 ^ (n.log2 + 1 : Int) := num_high
      _ = 2 ^ ((n.log2 : Int) - k.log2 + 1) * 2 ^ (k.log2 : Int) := by
          rw [← two_zpow_add]
          congr 1
          ring
      _ ≤ 2 ^ ((n.log2 : Int) - k.log2 + 1) * k :=
          mul_le_mul_of_nonneg_left den_low (two_zpow_pos _).le

/-- `2 ^ e` is the unit in the last place of binary64 numbers near `r`. -/
structure IsUnit (r : Rat) (e : Int) : Prop where
  least : -1074 ≤ e
  fits : r < 2 ^ (e + 53)
  full : e = -1074 ∨ 2 ^ (e + 52) ≤ r

theorem isUnit_unitExponent {r : Rat} (hr : 0 < r) : IsUnit r (unitExponent r) := by
  obtain ⟨low, high⟩ := log2_bounds hr
  unfold unitExponent
  generalize (r.num.toNat.log2 : Int) - r.den.log2 = l at low high
  rw [two_mul_binade]
  dsimp only
  split
  · rename_i fits
    have fits := mul_two_zpow_neg_lt_iff.1 fits
    refine ⟨le_max_left _ _, fits, ?_⟩
    rcases le_or_gt (l - 53) (-1074) with small | large
    · exact .inl (max_eq_left small)
    · rw [max_eq_right large.le]
      refine .inr (le_of_lt ?_)
      have e : l - 53 + 52 = l - 1 := by ring
      rwa [e]
  · rename_i exceeds
    have exceeds := not_lt.1 fun h => exceeds (mul_two_zpow_neg_lt_iff.2 h)
    refine ⟨by omega, lt_of_lt_of_le high (two_zpow_le_iff.2 (by omega)), .inr ?_⟩
    rw [add_assoc]
    exact exceeds

/-- There is one unit. -/
theorem IsUnit.unique {r : Rat} {e f : Int} (he : IsUnit r e) (hf : IsUnit r f) : e = f := by
  have notBelow {a b : Int} (ha : IsUnit r a) (hb : IsUnit r b) : b ≤ a := by
    rcases hb.full with low | full
    · rw [low]
      exact ha.least
    · have := two_zpow_lt_iff.1 (lt_of_le_of_lt full ha.fits)
      omega
  exact le_antisymm (notBelow hf he) (notBelow he hf)

theorem unitExponent_eq_iff {r : Rat} (hr : 0 < r) {e : Int} : unitExponent r = e ↔ IsUnit r e :=
  ⟨fun h => h ▸ isUnit_unitExponent hr, fun h => (isUnit_unitExponent hr).unique h⟩

/-! ### Rounding to integers -/

theorem nearestNat_natCast (n : Nat) : nearestNat (n : Rat) = n := by
  have low : (n : Rat).floor.toNat = n := by
    rw [← Int.cast_natCast, Rat.floor_intCast]
    rfl
  simp only [nearestNat, low, Rat.num_natCast, Rat.den_natCast, Int.toNat_natCast]
  rw [if_pos (by omega)]

theorem floor_le_nearestNat (r : Rat) : r.floor.toNat ≤ nearestNat r := by
  unfold nearestNat
  dsimp only
  split
  · exact le_rfl
  · split <;> omega

theorem le_nearestNat {r : Rat} {n : Nat} (h : (n : Rat) ≤ r) : n ≤ nearestNat r := by
  refine le_trans ?_ (floor_le_nearestNat r)
  have : (n : Int) ≤ r.floor := Rat.le_floor_iff.2 (by exact_mod_cast h)
  omega

theorem nearestNat_eq_zero {r : Rat} (hr : 0 ≤ r) (h : r < 1 / 2) : nearestNat r = 0 := by
  have low : r.floor = 0 := by
    have above : 0 ≤ r.floor := Rat.le_floor_iff.2 (by exact_mod_cast hr)
    have below : r.floor < 1 := Rat.floor_lt_iff.2 (by push_cast; linarith)
    omega
  have half : 2 * r.num.toNat < r.den := by
    have den_pos : (0 : Rat) < r.den := by exact_mod_cast r.den_pos
    rw [← Rat.num_div_den r, div_lt_div_iff₀ den_pos (by norm_num)] at h
    have : r.num * 2 < 1 * (r.den : Int) := by exact_mod_cast h
    have := Rat.num_nonneg.2 hr
    omega
  simp only [nearestNat, low, Int.toNat_zero]
  rw [if_pos (by omega)]

/-! ### Rounding to patterns -/

theorem scale_pos {m : Nat} (hm : 0 < m) (e : Int) : 0 < scale m e :=
  mul_pos (by exact_mod_cast hm) (two_zpow_pos e)

theorem scale_mul_neg (m : Nat) (e : Int) : scale m e * 2 ^ (-e) = m := by
  rw [scale, mul_assoc, ← two_zpow_add, add_neg_cancel, zpow_zero, mul_one]

theorem nearestPattern_scale {m : Nat} {e : Int} (hm : 0 < m) (least : -1074 ≤ e) (fits : m < 2 ^ 53)
    (full : e = -1074 ∨ 2 ^ 52 ≤ m) :
    nearestPattern (scale m e) = min infinityPattern ((e + 1074).toNat * 2 ^ 52 + m) := by
  have unit : unitExponent (scale m e) = e := by
    refine (unitExponent_eq_iff (scale_pos hm e)).2 ⟨least, ?_, ?_⟩
    · apply mul_two_zpow_neg_lt_iff.1
      rw [scale_mul_neg]
      exact_mod_cast fits
    · apply full.imp_right
      intro full
      apply le_mul_two_zpow_neg_iff.1
      rw [scale_mul_neg]
      exact_mod_cast full
  simp only [nearestPattern, unit, scale_mul_neg, nearestNat_natCast, binade_eq]

/-- What a pattern stands for is rounded to this pattern. -/
theorem nearestPattern_magnitudeOf {p : Nat} (hp : 0 < p) (hinf : p < infinityPattern) :
    nearestPattern (magnitudeOf p) = p := by
  unfold infinityPattern at hinf
  unfold magnitudeOf
  rw [binade_eq] at *
  split
  · rw [nearestPattern_scale hp le_rfl (by omega) (.inl rfl)]
    unfold infinityPattern binade
    omega
  · rw [nearestPattern_scale (by omega) (by omega) (by omega) (.inr (by omega))]
    unfold infinityPattern binade
    omega

theorem nearestPattern_of_tiny {r : Rat} (hr : 0 < r) (h : r < 2 ^ (-1075 : Int)) :
    nearestPattern r = 0 := by
  have unit : unitExponent r = -1074 :=
    (unitExponent_eq_iff hr).2 ⟨le_rfl, h.trans (two_zpow_lt_iff.2 (by norm_num)), .inl rfl⟩
  have half : r * 2 ^ (-(-1074) : Int) < 1 / 2 := by
    calc r * 2 ^ (-(-1074) : Int) < 2 ^ (-1075 : Int) * 2 ^ (-(-1074) : Int) :=
          mul_lt_mul_of_pos_right h (two_zpow_pos _)
      _ = 1 / 2 := by
          rw [← two_zpow_add]
          norm_num
  have scaled : 0 ≤ r * 2 ^ (-(-1074) : Int) := mul_nonneg hr.le (two_zpow_pos _).le
  simp only [nearestPattern, unit, nearestNat_eq_zero scaled half]
  rfl

theorem nearestPattern_of_huge {r : Rat} (h : 2 ^ (1024 : Int) ≤ r) :
    nearestPattern r = infinityPattern := by
  have hr : 0 < r := lt_of_lt_of_le (two_zpow_pos 1024) h
  obtain ⟨-, fits, full⟩ := isUnit_unitExponent hr
  have exponent := two_zpow_lt_iff.1 (lt_of_le_of_lt h fits)
  have mantissa : 2 ^ 52 ≤ nearestNat (r * 2 ^ (-unitExponent r)) := by
    refine le_nearestNat (le_mul_two_zpow_neg_iff.2 ?_)
    exact full.resolve_left (by omega)
  simp only [nearestPattern]
  unfold infinityPattern binade
  omega

end DynLisp.Binary64

namespace DynLisp.Decimal

open Binary64

/-! ### Reading decimal numerals -/

theorem ten_zpow_pos (e : Int) : (0 : Rat) < 10 ^ e := by positivity

theorem magnitude_eq_zero_iff (d : Decimal) : d.magnitude = 0 ↔ d.coefficient = 0 := by
  unfold magnitude
  rw [mul_eq_zero, Nat.cast_eq_zero]
  exact or_iff_left (ten_zpow_pos _).ne'

theorem magnitude_pos {d : Decimal} (h : d.coefficient ≠ 0) : 0 < d.magnitude :=
  mul_pos (by exact_mod_cast Nat.pos_of_ne_zero h) (ten_zpow_pos _)

/-- A number has at most one decimal digit more than a third of its binary digits. -/
theorem lt_ten_pow_log2 (c : Nat) : c < 10 ^ (c.log2 / 3 + 1) := by
  calc c < 2 ^ (c.log2 + 1) := Nat.lt_log2_self
    _ ≤ 2 ^ (3 * (c.log2 / 3 + 1)) := Nat.pow_le_pow_right (by norm_num) (by omega)
    _ = 8 ^ (c.log2 / 3 + 1) := by rw [pow_mul]; norm_num
    _ ≤ 10 ^ (c.log2 / 3 + 1) := Nat.pow_le_pow_left (by norm_num) _

/-- Three tenths of the binary digits of a number are decimal digits of it. -/
theorem ten_pow_log2_le {c : Nat} (hc : c ≠ 0) : 10 ^ (3 * c.log2 / 10) ≤ c := by
  refine le_trans ?_ (Nat.log2_self_le hc)
  apply (Nat.pow_le_pow_iff_left (n := 10) (by norm_num)).1
  calc (10 ^ (3 * c.log2 / 10)) ^ 10 = 10 ^ (3 * c.log2 / 10 * 10) := by rw [← pow_mul]
    _ ≤ 10 ^ (3 * c.log2) := Nat.pow_le_pow_right (by norm_num) (by omega)
    _ = 1000 ^ c.log2 := by rw [pow_mul]; norm_num
    _ ≤ 1024 ^ c.log2 := Nat.pow_le_pow_left (by norm_num) _
    _ = (2 ^ c.log2) ^ 10 := by rw [← pow_mul, mul_comm, pow_mul]; norm_num

theorem two_zpow_le_ten_zpow_huge : (2 : Rat) ^ (1075 : Int) ≤ 10 ^ hugeExponent := by
  calc (2 : Rat) ^ (1075 : Int) ≤ 2 ^ (1150 : Int) := two_zpow_le_iff.2 (by norm_num)
    _ = ((2 : Rat) ^ 23) ^ 50 := by rw [← pow_mul]; rfl
    _ ≤ ((10 : Rat) ^ 7) ^ 50 := pow_le_pow_left₀ (by norm_num) (by norm_num) 50
    _ = 10 ^ hugeExponent := by rw [← pow_mul]; rfl

theorem ten_zpow_le_iff {a b : Int} : (10 : Rat) ^ a ≤ 10 ^ b ↔ a ≤ b :=
  zpow_le_zpow_iff_right₀ (by norm_num)

theorem magnitude_lt_of_tiny {d : Decimal}
    (h : (d.coefficient.log2 / 3 + 1 : Nat) + d.exponent < -hugeExponent) :
    d.magnitude < 2 ^ (-1075 : Int) := by
  have digits : (d.coefficient : Rat) < 10 ^ (d.coefficient.log2 / 3 + 1) := by
    exact_mod_cast lt_ten_pow_log2 d.coefficient
  calc d.magnitude < 10 ^ (d.coefficient.log2 / 3 + 1) * 10 ^ d.exponent :=
        mul_lt_mul_of_pos_right digits (ten_zpow_pos _)
    _ = 10 ^ ((d.coefficient.log2 / 3 + 1 : Nat) + d.exponent) := by
        rw [zpow_add₀ (by norm_num), zpow_natCast]
    _ ≤ 10 ^ (-hugeExponent) := ten_zpow_le_iff.2 h.le
    _ ≤ 2 ^ (-1075 : Int) := by
        rw [zpow_neg, zpow_neg]
        exact inv_anti₀ (two_zpow_pos _) two_zpow_le_ten_zpow_huge

theorem magnitude_ge_of_huge {d : Decimal} (hc : d.coefficient ≠ 0)
    (h : hugeExponent < (3 * d.coefficient.log2 / 10 : Nat) + d.exponent) :
    2 ^ (1024 : Int) ≤ d.magnitude := by
  have digits : (10 : Rat) ^ (3 * d.coefficient.log2 / 10) ≤ d.coefficient := by
    exact_mod_cast ten_pow_log2_le hc
  calc (2 : Rat) ^ (1024 : Int) ≤ 2 ^ (1075 : Int) := two_zpow_le_iff.2 (by norm_num)
    _ ≤ 10 ^ hugeExponent := two_zpow_le_ten_zpow_huge
    _ ≤ 10 ^ ((3 * d.coefficient.log2 / 10 : Nat) + d.exponent) := ten_zpow_le_iff.2 h.le
    _ = 10 ^ (3 * d.coefficient.log2 / 10) * 10 ^ d.exponent := by
        rw [zpow_add₀ (by norm_num), zpow_natCast]
    _ ≤ d.magnitude := mul_le_mul_of_nonneg_right digits (ten_zpow_pos _).le

/-- The pattern read is the one nearest to the value written. -/
theorem pattern_eq_nearestPattern {d : Decimal} (hc : d.coefficient ≠ 0) :
    d.pattern = nearestPattern d.magnitude := by
  unfold pattern
  dsimp only
  split
  · rename_i tiny
    have small := magnitude_lt_of_tiny (tiny.resolve_left hc)
    exact (nearestPattern_of_tiny (magnitude_pos hc) small).symm
  · split
    · rename_i huge
      exact (nearestPattern_of_huge (magnitude_ge_of_huge hc huge)).symm
    · rfl

/-- Reading depends on nothing but the value written. -/
theorem pattern_eq_of_magnitude_eq {d e : Decimal} (h : d.magnitude = e.magnitude) :
    d.pattern = e.pattern := by
  by_cases hc : d.coefficient = 0
  · have he : e.coefficient = 0 := by
      rw [← magnitude_eq_zero_iff, ← h, magnitude_eq_zero_iff]
      exact hc
    simp [pattern, hc, he]
  · have he : e.coefficient ≠ 0 := by
      rw [Ne, ← magnitude_eq_zero_iff, ← h, magnitude_eq_zero_iff]
      exact hc
    rw [pattern_eq_nearestPattern hc, pattern_eq_nearestPattern he, h]

end DynLisp.Decimal
