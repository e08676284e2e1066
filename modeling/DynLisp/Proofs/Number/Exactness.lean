import DynLisp.Proofs.Number.Layout

/-! # Plain notation is exact

Whatever text writes a decimal, with or without a power of ten and with zeros that do not count, its
digits laid out anew are the plain notation of the same number.

* `Decimal.writes_layOut` and the lemmas after it carry the magnitude through the steps of laying out:
  moving the point, and dropping zeros on either side.
* `DecimalText` are the texts with digits before the point, digits after it if there is a point, and a
  signed power of ten if there is one; `DecimalText.decimal` is what such a text is read as.
* `DecimalText.IsPlain` says that there is no power of ten and no zero that does not count.
  `DecimalText.plain` is such a text of the same number, and the only one (`IsPlain.chars_eq`).
* `DecimalText.plain_exact` puts them together, and says what follows for the notations of numbers. -/

namespace DynLisp

open Text

/-! ### Laying out -/

namespace Decimal

theorem abs_value (d : Decimal) : |d.value| = d.magnitude := by
  have nonneg : 0 ≤ d.magnitude := mul_nonneg (Nat.cast_nonneg _) (zpow_nonneg (by norm_num) _)
  unfold value
  split
  · rw [abs_neg, abs_of_nonneg nonneg]
  · exact abs_of_nonneg nonneg

theorem Writes.of_magnitude {d d' : Decimal} {whole fraction : List Char} (h : Writes d whole fraction)
    (same : d.magnitude = d'.magnitude) : Writes d' whole fraction :=
  ⟨h.wholeDigits, h.fractionDigits, h.nonempty, h.value.trans same⟩

/-- Wherever the point is put, the digits keep their places relative to it. -/
theorem writes_layOut {digits : List Char} (nonempty : digits ≠ []) (h : ∀ c ∈ digits, c.isDigit)
    (negative : Bool) (point : Int) :
    Writes ⟨negative, Nat.ofDigitChars 10 digits 0, point - digits.length⟩
      (layOut digits point).1 (layOut digits point).2 := by
  have zeros := isDigit_replicate_zero
  unfold layOut
  by_cases before : point ≤ 0
  · rw [if_pos before]
    refine ⟨isDigit_replicate_zero 1, isDigit_append (zeros _) h, by simp, ?_⟩
    have places : -((List.replicate (-point).toNat '0' ++ digits).length : Int) =
        point - digits.length := by
      rw [List.length_append, List.length_replicate]
      omega
    have leading : ['0'] ++ (List.replicate (-point).toNat '0' ++ digits) =
        List.replicate ((-point).toNat + 1) '0' ++ digits := rfl
    rw [places, leading, Nat.ofDigitChars_append, Nat.ofDigitChars_replicate_zero, Nat.mul_zero,
      magnitude]
  rw [if_neg before]
  by_cases behind : digits.length ≤ point
  · rw [if_pos behind]
    refine ⟨isDigit_append h (zeros _), by simp, by simp [nonempty], ?_⟩
    obtain ⟨n, hn⟩ := Int.eq_ofNat_of_zero_le (Int.sub_nonneg_of_le behind)
    rw [List.append_nil, Nat.ofDigitChars_append, Nat.ofDigitChars_replicate_zero, magnitude, hn]
    simp [mul_comm]
  · rw [if_neg behind, List.splitAt_eq]
    have cut : point.toNat < digits.length := by omega
    refine ⟨fun c hc => h c (List.mem_of_mem_take hc), fun c hc => h c (List.mem_of_mem_drop hc), ?_, ?_⟩
    · intro none
      have length := congrArg List.length none
      simp only [List.length_take, List.length_nil] at length
      omega
    · have places : -((digits.drop point.toNat).length : Int) = point - digits.length := by
        rw [List.length_drop]
        omega
      rw [List.take_append_drop, places, magnitude]

theorem dropLeadingZeros_ne_nil (whole : List Char) : dropLeadingZeros whole ≠ [] := by
  unfold dropLeadingZeros
  split <;> simp_all

theorem exists_dropLeadingZeros {whole : List Char} (nonempty : whole ≠ []) :
    ∃ n, whole = List.replicate n '0' ++ dropLeadingZeros whole := by
  have split := (List.takeWhile_append_dropWhile (p := (· == '0')) (l := whole)).symm
  rw [takeWhile_zero] at split
  unfold dropLeadingZeros
  cases rest : whole.dropWhile (· == '0') with
  | nil =>
      rw [rest, List.append_nil] at split
      cases count : (whole.takeWhile (· == '0')).length with
      | zero =>
          rw [count] at split
          exact absurd split nonempty
      | succ n =>
          rw [count, List.replicate_succ'] at split
          exact ⟨n, split⟩
  | cons c cs =>
      rw [rest] at split
      exact ⟨_, split⟩

/-- Zeros before the whole part do not count. -/
theorem Writes.dropLeading {d : Decimal} {whole fraction : List Char} (h : Writes d whole fraction) :
    Writes d (dropLeadingZeros whole) fraction := by
  obtain ⟨n, e⟩ := exists_dropLeadingZeros h.nonempty
  refine ⟨fun c hc => h.wholeDigits c (by rw [e]; simp [hc]), h.fractionDigits, ?_, ?_⟩
  · exact dropLeadingZeros_ne_nil whole
  · have value := h.value
    rwa [e, List.append_assoc, Nat.ofDigitChars_append, Nat.ofDigitChars_replicate_zero,
      Nat.mul_zero] at value

theorem head?_dropLeadingZeros (whole : List Char) :
    dropLeadingZeros whole = ['0'] ∨ (dropLeadingZeros whole).head? ≠ some '0' := by
  have first := List.head?_dropWhile_not (· == '0') whole
  unfold dropLeadingZeros
  cases rest : whole.dropWhile (· == '0') with
  | nil => exact .inl rfl
  | cons c cs =>
      rw [rest] at first
      right
      simpa using first

theorem getLast?_dropTrailingZeros (fraction : List Char) :
    (dropTrailingZeros fraction).getLast? ≠ some '0' := by
  have first := List.head?_dropWhile_not (· == '0') fraction.reverse
  rw [dropTrailingZeros, List.getLast?_reverse]
  cases rest : fraction.reverse.dropWhile (· == '0') with
  | nil => simp
  | cons c cs =>
      rw [rest] at first
      simpa using first

/-- As many digits of the same value are the same digits. -/
theorem eq_of_ofDigitChars_eq {cs ds : List Char} (hc : ∀ c ∈ cs, c.isDigit) (hd : ∀ d ∈ ds, d.isDigit)
    (length : cs.length = ds.length) {m n : Nat}
    (same : Nat.ofDigitChars 10 cs m = Nat.ofDigitChars 10 ds n) : cs = ds ∧ m = n := by
  induction cs generalizing ds m n with
  | nil =>
      obtain rfl := List.length_eq_zero_iff.1 length.symm
      exact ⟨rfl, same⟩
  | cons c cs ih =>
      obtain ⟨d, ds, rfl⟩ := List.exists_cons_of_length_eq_add_one length.symm
      rw [List.forall_mem_cons] at hc hd
      rw [Nat.ofDigitChars_cons, Nat.ofDigitChars_cons] at same
      obtain ⟨rfl, value⟩ := ih hc.2 hd.2 (Nat.succ.inj length) same
      obtain ⟨lowC, highC⟩ := Char.isDigit_iff_toNat.1 hc.1
      obtain ⟨lowD, highD⟩ := Char.isDigit_iff_toNat.1 hd.1
      have bounds : '0'.toNat = 48 ∧ '9'.toNat = 57 := ⟨rfl, rfl⟩
      obtain rfl : c = d := Char.toNat_inj.1 (by omega)
      exact ⟨rfl, by omega⟩

end Decimal

/-! ### Decimal texts -/

/-- A decimal as a text: a minus or no sign, digits, a point and digits or neither, and the letter `e`, a
sign and digits or none of these. -/
structure DecimalText where
  negative : Bool
  whole : List Char
  /-- Empty if there is no point. -/
  fraction : List Char
  /-- The sign, whether it is a minus, and the digits of the power of ten. -/
  power : Option (Bool × List Char)
  whole_ne_nil : whole ≠ []
  whole_digits : ∀ c ∈ whole, c.isDigit
  fraction_digits : ∀ c ∈ fraction, c.isDigit
  power_digits : ∀ p ∈ power, p.2 ≠ [] ∧ ∀ c ∈ p.2, c.isDigit

namespace DecimalText

open Decimal

variable (t : DecimalText)

/-- A written power of ten. -/
def powerChars : Option (Bool × List Char) → List Char
  | none => []
  | some (negative, digits) => 'e' :: (if negative then '-' else '+') :: digits

/-- The power of ten that is written. -/
def powerValue : Option (Bool × List Char) → Int
  | none => 0
  | some (negative, digits) =>
    if negative then -(Nat.ofDigitChars 10 digits 0 : Int) else Nat.ofDigitChars 10 digits 0

def chars : List Char :=
  (if t.negative then ['-'] else []) ++ (t.whole ++ pointed t.fraction ++ powerChars t.power)

/-- What the text writes. -/
def decimal : Decimal :=
  ⟨t.negative, Nat.ofDigitChars 10 (t.whole ++ t.fraction) 0,
    powerValue t.power - t.fraction.length⟩

/-- No power of ten, no zero before other digits of the whole part, and none at the end of the
fraction. -/
structure IsPlain : Prop where
  power : t.power = none
  whole : t.whole = ['0'] ∨ t.whole.head? ≠ some '0'
  fraction : t.fraction.getLast? ≠ some '0'

/-! ### Reading -/

theorem exponentOfChars?_powerChars :
    exponentOfChars? (powerChars t.power) = some (powerValue t.power) := by
  cases h : t.power with
  | none => rfl
  | some p =>
      obtain ⟨nonempty, digits⟩ := t.power_digits p h
      exact exponentOfChars?_of_digits nonempty digits p.1

theorem continues : Continues t.fraction (powerValue t.power) (pointed t.fraction)
    (powerChars t.power) := by
  have read := t.exponentOfChars?_powerChars
  refine ⟨t.fraction_digits, ?_, ?_⟩
  · cases t.fraction with
    | nil => exact .inr ⟨rfl, rfl⟩
    | cons c cs => exact .inl rfl
  · cases h : t.power with
    | none => exact .inl ⟨rfl, rfl⟩
    | some p =>
        rw [h] at read
        exact .inr ⟨(if p.1 then '-' else '+') :: p.2, rfl, read⟩

theorem takeFraction_rest : takeFraction (pointed t.fraction ++ powerChars t.power) =
    (t.fraction, powerChars t.power) := by
  have letter : isDigit 'e' = false := by decide
  have noDigit : (powerChars t.power).takeWhile isDigit = [] ∧
      (powerChars t.power).dropWhile isDigit = powerChars t.power := by
    cases t.power <;> simp [powerChars, letter]
  have digits : ∀ c ∈ t.fraction, isDigit c := fun c hc => isDigit_of_isDigit (t.fraction_digits c hc)
  cases h : t.fraction with
  | nil => cases t.power <;> rfl
  | cons c cs =>
      rw [h] at digits
      show ((c :: cs ++ powerChars t.power).takeWhile isDigit,
        (c :: cs ++ powerChars t.power).dropWhile isDigit) = _
      rw [List.takeWhile_append_of_pos digits, List.dropWhile_append_of_pos digits, noDigit.1,
        noDigit.2, List.append_nil]

/-- The digits before and after the point, without the power of ten. -/
theorem writes : Writes ⟨t.negative, Nat.ofDigitChars 10 (t.whole ++ t.fraction) 0,
    -(t.fraction.length : Int)⟩ t.whole t.fraction :=
  ⟨t.whole_digits, t.fraction_digits, t.whole_ne_nil, rfl⟩

/-- Such a text is read as the decimal. -/
theorem ofChars?_chars : ofChars? t.chars = some t.decimal := by
  have digits : ∀ c ∈ t.whole, isDigit c := fun c hc => isDigit_of_isDigit (t.whole_digits c hc)
  have sign := takeSign_of_writes t.writes (pointed t.fraction ++ powerChars t.power)
  have point : isDigit '.' = false := by decide
  have letter : isDigit 'e' = false := by decide
  have noDigit : (pointed t.fraction ++ powerChars t.power).takeWhile isDigit = [] ∧
      (pointed t.fraction ++ powerChars t.power).dropWhile isDigit =
        pointed t.fraction ++ powerChars t.power := by
    cases t.fraction <;> cases t.power <;> simp [pointed, powerChars, point, letter]
  have value := valueOfDigits_eq_ofDigitChars (isDigit_append t.whole_digits t.fraction_digits)
  simp only [ofChars?, chars, List.append_assoc, sign]
  rw [List.takeWhile_append_of_pos digits, List.dropWhile_append_of_pos digits, noDigit.1, noDigit.2,
    List.append_nil, t.takeFraction_rest, t.exponentOfChars?_powerChars, value]
  simp [t.whole_ne_nil, decimal]

/-! ### The plain notation -/

/-- The whole part and the fraction after the point is moved by the power of ten. -/
def laidOut : List Char × List Char :=
  layOut (t.whole ++ t.fraction) (t.whole.length + powerValue t.power)

theorem writes_laidOut : Writes t.decimal t.laidOut.1 t.laidOut.2 := by
  have nonempty : t.whole ++ t.fraction ≠ [] := by simp [t.whole_ne_nil]
  have writes := writes_layOut nonempty (isDigit_append t.whole_digits t.fraction_digits) t.negative
    (t.whole.length + powerValue t.power)
  refine writes.of_magnitude ?_
  have exponent : (t.whole.length + powerValue t.power) - ((t.whole ++ t.fraction).length : Int) =
      powerValue t.power - t.fraction.length := by
    rw [List.length_append]
    omega
  rw [exponent]
  rfl

theorem writes_plain : Writes t.decimal (dropLeadingZeros t.laidOut.1) (dropTrailingZeros t.laidOut.2) :=
  t.writes_laidOut.dropLeading.dropZeros

/-- The same number without a power of ten and without the zeros that do not count. -/
def plain : DecimalText where
  negative := t.negative
  whole := dropLeadingZeros t.laidOut.1
  fraction := dropTrailingZeros t.laidOut.2
  power := none
  whole_ne_nil := t.writes_plain.nonempty
  whole_digits := t.writes_plain.wholeDigits
  fraction_digits := t.writes_plain.fractionDigits
  power_digits := by simp

theorem isPlain_plain : t.plain.IsPlain :=
  ⟨rfl, head?_dropLeadingZeros _, getLast?_dropTrailingZeros _⟩

theorem plainOfScientific?_chars : plainOfScientific? t.chars = some t.plain.chars := by
  rw [chars, plainOfScientific?_digits t.negative t.whole_ne_nil t.whole_digits t.continues,
    ← List.append_nil (joinParts _)]
  rfl

theorem value_plain : t.plain.decimal.value = t.decimal.value := by
  have magnitude : t.plain.decimal.magnitude = t.decimal.magnitude := by
    rw [← t.writes_plain.value]
    simp [Decimal.magnitude, decimal, plain, powerValue]
  rw [Decimal.value, Decimal.value, magnitude]
  rfl

/-! ### The plain notation of a number is unique -/

variable {t} {p q : DecimalText}

theorem IsPlain.magnitude (h : p.IsPlain) : p.decimal.magnitude =
    Nat.ofDigitChars 10 (p.whole ++ p.fraction) 0 * (10 : Rat) ^ (-(p.fraction.length : Int)) := by
  rw [Decimal.magnitude, decimal, h.power, powerValue, Int.zero_sub]

/-- Some digit of a fraction counts, so no power of ten can be taken out. -/
theorem IsPlain.not_dvd (h : p.IsPlain) (some : p.fraction ≠ []) :
    ¬ 10 ∣ Nat.ofDigitChars 10 (p.whole ++ p.fraction) 0 := by
  let c := p.fraction.getLast some
  have last : p.fraction.dropLast ++ [c] = p.fraction := List.dropLast_append_getLast some
  obtain ⟨low, high⟩ := Char.isDigit_iff_toNat.1 (p.fraction_digits c (List.getLast_mem some))
  have nonzero : c.toNat ≠ 48 := by
    intro e
    have zero : c = '0' := Char.toNat_inj.1 e
    exact h.fraction (by rw [List.getLast?_eq_some_getLast some]; exact congrArg Option.some zero)
  have bounds : '0'.toNat = 48 ∧ '9'.toNat = 57 := ⟨rfl, rfl⟩
  rw [← last, ← List.append_assoc, Nat.ofDigitChars_append, Nat.ofDigitChars_cons, Nat.ofDigitChars_nil]
  omega

/-- A number of so many places has no more places in plain notation. -/
theorem IsPlain.length_fraction_le (h : p.IsPlain) {n places : Nat}
    (same : p.decimal.magnitude = n * (10 : Rat) ^ (-(places : Int))) :
    p.fraction.length ≤ places := by
  by_contra more
  obtain ⟨extra, length⟩ : ∃ extra, p.fraction.length = places + (extra + 1) :=
    ⟨p.fraction.length - places - 1, by omega⟩
  have some : p.fraction ≠ [] := List.length_pos_iff.1 (by omega)
  refine h.not_dvd some ?_
  -- the digits have the value of `n` with zeros behind it
  have digits : Nat.ofDigitChars 10 (p.whole ++ p.fraction) 0 = n * 10 ^ (extra + 1) := by
    have shift : (10 : Rat) ^ (-(places : Int)) =
        10 ^ (extra + 1) * 10 ^ (-((places + (extra + 1) : Nat) : Int)) := by
      rw [← zpow_natCast, ← zpow_add₀ (by norm_num)]
      congr 1
      omega
    rw [h.magnitude, length, shift, ← mul_assoc] at same
    exact_mod_cast mul_right_cancel₀ (zpow_ne_zero _ (by norm_num)) same
  rw [digits, pow_succ]
  exact Dvd.intro_left (n * 10 ^ extra) (by ring)

/-- With zeros before it the shorter whole part is the longer one, which begins with none. -/
theorem IsPlain.eq_of_le (hp : p.IsPlain) (hq : q.IsPlain) (sign : p.negative = q.negative)
    (fraction : p.fraction.length = q.fraction.length) (whole : p.whole.length ≤ q.whole.length)
    (same : Nat.ofDigitChars 10 (p.whole ++ p.fraction) 0 = Nat.ofDigitChars 10 (q.whole ++ q.fraction) 0) :
    p.chars = q.chars := by
  obtain ⟨n, shorter⟩ := Nat.exists_eq_add_of_le' whole
  let padded := List.replicate n '0' ++ p.whole
  have value : Nat.ofDigitChars 10 (padded ++ p.fraction) 0 = Nat.ofDigitChars 10 (q.whole ++ q.fraction) 0 := by
    rw [← same, List.append_assoc, Nat.ofDigitChars_append, Nat.ofDigitChars_replicate_zero, Nat.mul_zero]
  have length : padded.length = q.whole.length := by
    rw [List.length_append, List.length_replicate, shorter]
  have digits := (eq_of_ofDigitChars_eq
    (isDigit_append (isDigit_append (isDigit_replicate_zero n) p.whole_digits) p.fraction_digits)
    (isDigit_append q.whole_digits q.fraction_digits)
    (by rw [List.length_append, length, fraction, List.length_append]) value).1
  obtain ⟨wholes, fractions⟩ := List.append_inj digits length
  have none : n = 0 := by
    cases n with
    | zero => rfl
    | succ n =>
        rcases hq.whole with zero | first
        · have one := congrArg List.length (wholes.trans zero)
          have some := List.length_pos_iff.2 p.whole_ne_nil
          simp at one
          omega
        · rw [← wholes] at first
          exact absurd rfl first
  subst none
  rw [chars, chars, sign, fractions, hp.power, hq.power, ← wholes]
  rfl

/-- A number of one sign has one plain notation. -/
theorem IsPlain.chars_eq (hp : p.IsPlain) (hq : q.IsPlain) (sign : p.negative = q.negative)
    (same : p.decimal.value = q.decimal.value) : p.chars = q.chars := by
  have magnitude : p.decimal.magnitude = q.decimal.magnitude := by
    rw [← p.decimal.abs_value, ← q.decimal.abs_value, same]
  have fraction : p.fraction.length = q.fraction.length := Nat.le_antisymm
    (hp.length_fraction_le (magnitude.trans hq.magnitude))
    (hq.length_fraction_le (magnitude.symm.trans hp.magnitude))
  have digits : Nat.ofDigitChars 10 (p.whole ++ p.fraction) 0 =
      Nat.ofDigitChars 10 (q.whole ++ q.fraction) 0 := by
    rw [hp.magnitude, hq.magnitude, fraction] at magnitude
    exact_mod_cast mul_right_cancel₀ (zpow_ne_zero _ (by norm_num)) magnitude
  -- as many digits stand behind the points, and so the whole parts alone may be of different lengths
  rcases Nat.le_total p.whole.length q.whole.length with le | le
  · exact hp.eq_of_le hq sign fraction le digits
  · exact (hq.eq_of_le hp sign.symm fraction.symm le digits.symm).symm

/-- A point is written where the number is no integer. -/
theorem IsPlain.point_iff (h : p.IsPlain) : '.' ∉ p.chars ↔ ∃ n : Int, p.decimal.value = n := by
  have free : '.' ∉ p.chars ↔ p.fraction = [] := by
    have sign : '.' ∉ (if p.negative then ['-'] else []) := by cases p.negative <;> decide
    have whole := not_mem_of_isDigit p.whole_digits (c := '.') rfl
    rw [chars, h.power]
    cases p.fraction <;> simp [pointed, powerChars, sign, whole]
  let N : Nat := Nat.ofDigitChars 10 (p.whole ++ p.fraction) 0
  rw [free]
  constructor
  · intro none
    have magnitude : |p.decimal.value| = N := by
      rw [p.decimal.abs_value, h.magnitude, none]
      simp [N, none]
    rcases (abs_eq N.cast_nonneg).1 magnitude with value | value
    · exact ⟨N, by rw [value, Int.cast_natCast]⟩
    · exact ⟨-N, by rw [value, Int.cast_neg, Int.cast_natCast]⟩
  · rintro ⟨n, integer⟩
    have magnitude : p.decimal.magnitude = n.natAbs * (10 : Rat) ^ (-((0 : Nat) : Int)) := by
      rw [← p.decimal.abs_value, integer]
      simp
    exact List.length_eq_zero_iff.1 (Nat.le_zero.1 (h.length_fraction_le magnitude))

end DecimalText

/-! ### Numbers -/

namespace Decimal

theorem pointed_of_ne_nil {fraction : List Char} (h : fraction ≠ []) :
    pointed fraction = '.' :: fraction := by
  cases fraction with
  | nil => exact absurd rfl h
  | cons c cs => rfl

theorem decimalText_of_scientific (style : ScientificStyle) (d : Decimal) :
    ∃ t : DecimalText, d.scientificChars style = t.chars := by
  rw [scientificChars_eq]
  by_cases positional : style.leastPositional ≤ d.leading ∧ d.leading ≤ style.greatestPositional
  · rw [if_pos positional]
    have writes := d.writes_parts.dropZeros
    refine ⟨⟨d.negative, d.parts.1, shownFraction (dropTrailingZeros d.parts.2), none, writes.nonempty,
      writes.wholeDigits, isDigit_shownFraction writes.fractionDigits, by simp⟩, ?_⟩
    rw [← pointed_of_ne_nil (shownFraction_ne_nil _)]
    rfl
  · rw [if_neg positional]
    obtain ⟨power, nonempty, powerDigits, -, chars⟩ := exists_exponentChars style d.leading
    obtain ⟨c, cs, some⟩ := List.exists_cons_of_ne_nil d.significant_ne_nil
    have digits := d.isDigit_significant
    rw [some] at digits ⊢
    obtain ⟨first, others⟩ := List.forall_mem_cons.1 digits
    refine ⟨⟨d.negative, [c], cs, Option.some (decide (d.leading < 0), power), List.cons_ne_nil c [],
      List.forall_mem_singleton.2 first, others, ?_⟩, ?_⟩
    · rintro p ⟨⟩
      exact ⟨nonempty, powerDigits⟩
    · rw [chars]
      rfl

end Decimal

namespace DecimalText

open Decimal

/-- The text is the scientific notation of a finite number. -/
structure Denotes (t : DecimalText) (x : Float) : Prop where
  number : ¬ x.isNaN
  finite : ¬ x.isInf
  text : (Numeral.scientific x).toList = t.chars

theorem exists_denotes {x : Float} (number : ¬ x.isNaN) (finite : ¬ x.isInf) :
    ∃ t : DecimalText, t.Denotes x := by
  obtain ⟨t, text⟩ := (Binary64.shortest x).decimalText_of_scientific Numeral.listingStyle
  refine ⟨t, number, finite, ?_⟩
  rw [Numeral.scientific, if_neg number, if_neg finite, String.toList_ofList, text]

theorem Denotes.plain_eq {t : DecimalText} {x : Float} (h : t.Denotes x) :
    plainOfScientific? t.chars = some (Numeral.plain x).toList := by
  rw [← h.text, Numeral.scientific, if_neg h.number, if_neg h.finite, String.toList_ofList,
    plainOfScientific?_scientificChars, Numeral.plain, String.toList_ofList, Numeral.plainChars,
    if_neg h.number, if_neg h.finite]

theorem plain_chars_eq_iff {t u : DecimalText} : t.plain.chars = u.plain.chars ↔
    t.negative = u.negative ∧ t.decimal.value = u.decimal.value := by
  constructor
  · intro same
    have read := t.plain.ofChars?_chars
    rw [same, u.plain.ofChars?_chars] at read
    have decimal := Option.some.inj read
    refine ⟨(congrArg Decimal.negative decimal).symm, ?_⟩
    rw [← t.value_plain, ← u.value_plain, decimal]
  · rintro ⟨sign, same⟩
    exact t.isPlain_plain.chars_eq u.isPlain_plain sign (by rw [t.value_plain, u.value_plain, same])

/-- **Plain notation is exact.**  Every decimal text has a plain notation, which is of its shape without a
power of ten and without zeros that do not count; it is read as the same number with the same sign, and
has a point where the number is no integer.  Two texts have one plain notation where they write one
number with one sign.  The scientific notation of a finite number is such a text, and what it amounts to
is the plain notation of the number. -/
theorem plain_exact :
    (∀ t : DecimalText, ofChars? t.chars = some t.decimal) ∧
    (∀ t : DecimalText, ∃ p : DecimalText, plainOfScientific? t.chars = some p.chars ∧ p.IsPlain ∧
      p.negative = t.negative ∧ p.decimal.value = t.decimal.value ∧
      ('.' ∉ p.chars ↔ ∃ n : Int, t.decimal.value = n)) ∧
    (∀ t u : DecimalText, plainOfScientific? t.chars = plainOfScientific? u.chars ↔
      t.negative = u.negative ∧ t.decimal.value = u.decimal.value) ∧
    (∀ x : Float, ¬ x.isNaN → ¬ x.isInf → ∃ t : DecimalText, t.Denotes x) ∧
    (∀ (t : DecimalText) (x : Float), t.Denotes x →
      plainOfScientific? t.chars = some (Numeral.plain x).toList ∧
      ('.' ∉ (Numeral.plain x).toList ↔ ∃ n : Int, t.decimal.value = n)) ∧
    ∀ (t u : DecimalText) (x y : Float), t.Denotes x → u.Denotes y →
      (Numeral.plain x = Numeral.plain y ↔
        t.negative = u.negative ∧ t.decimal.value = u.decimal.value) := by
  have pointIff (t : DecimalText) : '.' ∉ t.plain.chars ↔ ∃ n : Int, t.decimal.value = n := by
    rw [← t.value_plain]
    exact t.isPlain_plain.point_iff
  have plainText {t : DecimalText} {x : Float} (h : t.Denotes x) :
      (Numeral.plain x).toList = t.plain.chars :=
    Option.some.inj (h.plain_eq.symm.trans t.plainOfScientific?_chars)
  refine ⟨fun t => t.ofChars?_chars, fun t => ?exact, fun t u => ?canonical,
    fun x => exists_denotes, fun t x h => ⟨h.plain_eq, ?point⟩, fun t u x y hx hy => ?numbers⟩
  case exact =>
    exact ⟨t.plain, t.plainOfScientific?_chars, t.isPlain_plain, rfl, t.value_plain, pointIff t⟩
  case canonical =>
    rw [t.plainOfScientific?_chars, u.plainOfScientific?_chars, Option.some_inj]
    exact plain_chars_eq_iff
  case point =>
    rw [plainText h]
    exact pointIff t
  case numbers =>
    rw [← String.toList_inj, plainText hx, plainText hy]
    exact plain_chars_eq_iff

/-- The two zeros are written `0.0` and `-0.0`, and so their plain notations differ; neither has a
point. -/
theorem plain_of_zeros : ∃ t u : DecimalText, t.Denotes 0 ∧ u.Denotes (-0) ∧
    Numeral.plain 0 ≠ Numeral.plain (-0) ∧
    '.' ∉ (Numeral.plain 0).toList ∧ '.' ∉ (Numeral.plain (-0)).toList := by
  let zero (negative : Bool) : DecimalText :=
    ⟨negative, ['0'], ['0'], none, by simp, isDigit_replicate_zero 1, isDigit_replicate_zero 1, by simp⟩
  have plus : (zero false).Denotes 0 := ⟨by decide +kernel, by decide +kernel, by decide +kernel⟩
  have minus : (zero true).Denotes (-0) := ⟨by decide +kernel, by decide +kernel, by decide +kernel⟩
  have value (negative : Bool) : (zero negative).decimal.value = (0 : Int) := by
    have coefficient : Nat.ofDigitChars 10 ['0', '0'] 0 = 0 := rfl
    simp [zero, decimal, Decimal.value, Decimal.magnitude, coefficient]
  obtain ⟨-, -, -, -, ofNumber, ofNumbers⟩ := plain_exact
  refine ⟨zero false, zero true, plus, minus, ?_, ?_, ?_⟩
  · intro same
    have signs := ((ofNumbers _ _ _ _ plus minus).1 same).1
    cases signs
  · exact (ofNumber _ _ plus).2.2 ⟨0, value false⟩
  · exact (ofNumber _ _ minus).2.2 ⟨0, value true⟩

end DecimalText
end DynLisp
