import DynLisp.Number.Scientific
import DynLisp.Proofs.Number.PlainNotation

/-! # Plain notation from scientific notation

The plain notation of a decimal can be read off its scientific notation: the digits around the point
are taken together, and laid out anew with the point moved by the power of ten.

* `layOut` puts the point after so many digits, and `parts` is such a layout (`parts_eq_layOut`).
* `plainOfScientific?` lays out the digits of a text anew; there is no result if what stands after the
  letter `e` is no integer.
* `plainOfScientific?_scientificChars`: from a scientific notation in any style, there is a result, and
  it is the plain notation. -/

namespace DynLisp.Decimal

open Text

/-! ### Laying out digits -/

/-- The whole part and the fraction of digits with the point after the first `point` of them. -/
def layOut (digits : List Char) (point : Int) : List Char × List Char :=
  if point ≤ 0 then (['0'], List.replicate (-point).toNat '0' ++ digits)
  else if digits.length ≤ point then
    (digits ++ List.replicate (point - digits.length).toNat '0', [])
  else digits.splitAt point.toNat

/-- A whole part without the zeros before it. -/
def dropLeadingZeros (whole : List Char) : List Char :=
  match whole.dropWhile (· == '0') with
  | [] => ['0']
  | trimmed => trimmed

/-- A fraction after a point, if there is one. -/
def pointed : List Char → List Char
  | [] => []
  | fraction => '.' :: fraction

/-- The two parts without the zeros that do not count. -/
def joinParts (parts : List Char × List Char) : List Char :=
  dropLeadingZeros parts.1 ++ pointed (dropTrailingZeros parts.2)

theorem dropTrailingZeros_append_zeros (cs : List Char) (n : Nat) :
    dropTrailingZeros (cs ++ List.replicate n '0') = dropTrailingZeros cs := by
  rw [dropTrailingZeros, List.reverse_append, List.reverse_replicate,
    List.dropWhile_append_of_pos fun c hc => by simp [List.eq_of_mem_replicate hc]]
  rfl

/-- Zeros after the digits do not count. -/
theorem joinParts_layOut_append_zeros (digits : List Char) (n : Nat) (point : Int) :
    joinParts (layOut (digits ++ List.replicate n '0') point) = joinParts (layOut digits point) := by
  have join {whole fraction : List Char} (k : Nat) :
      joinParts (whole, fraction ++ List.replicate k '0') = joinParts (whole, fraction) := by
    rw [joinParts, joinParts, dropTrailingZeros_append_zeros]
  unfold layOut
  by_cases small : point ≤ 0
  · rw [if_pos small, if_pos small, ← List.append_assoc, join]
  obtain ⟨p, rfl⟩ := Int.eq_ofNat_of_zero_le (Int.le_of_lt (not_le.1 small))
  rw [if_neg small, if_neg small, List.length_append, List.length_replicate]
  by_cases all : digits.length + n ≤ p
  · rw [if_pos (by omega), if_pos (by omega), List.append_assoc, List.replicate_append_replicate]
    congr 5
    omega
  rw [if_neg (by omega), List.splitAt_eq, Int.toNat_natCast]
  by_cases some : digits.length ≤ p
  · rw [if_pos (by omega), List.take_append, List.take_of_length_le some, List.take_replicate,
      List.drop_append, List.drop_eq_nil_of_le some, List.drop_replicate, join]
    congr 4
    omega
  · have within : p ≤ digits.length := Nat.le_of_not_le some
    rw [if_neg (by omega), List.splitAt_eq, List.take_append_of_le_length within,
      List.drop_append_of_le_length within, join]

/-- The parts of a decimal are its digits with the point moved by its exponent. -/
theorem parts_eq_layOut {d : Decimal} (h : d.coefficient ≠ 0) :
    d.parts = layOut d.digits (d.digits.length + d.exponent) := by
  have some : 0 < d.digits.length := Nat.length_toDigits_pos
  unfold parts layOut
  by_cases whole : 0 ≤ d.exponent
  · rw [if_pos whole, if_neg h, if_neg (by omega), if_pos (by omega)]
    congr 3
    omega
  rw [if_neg whole]
  dsimp only
  generalize hp : (-d.exponent).toNat = places
  have exponent : d.exponent = -(places : Int) := by omega
  rw [exponent]
  by_cases small : d.digits.length ≤ places
  · rw [if_pos (by omega)]
    have pad : places + 1 - d.digits.length = places - d.digits.length + 1 := by omega
    have count : (List.replicate (places + 1 - d.digits.length) '0' ++ d.digits).length - places = 1 := by
      simp only [List.length_append, List.length_replicate]
      omega
    rw [count, pad, List.replicate_succ, List.splitAt_eq]
    simp only [List.cons_append, List.take_succ_cons, List.take_zero, List.drop_succ_cons, List.drop_zero,
      Prod.mk.injEq, true_and]
    congr 2
    omega
  · rw [if_neg (by omega), if_neg (by omega)]
    have pad : places + 1 - d.digits.length = 0 := by omega
    rw [pad, List.replicate_zero, List.nil_append]
    congr 1
    omega

/-! ### The whole part begins with no zero -/

theorem head?_toDigits_ne_zero {n : Nat} (h : 0 < n) : (Nat.toDigits 10 n).head? ≠ some '0' := by
  induction n using Nat.strongRecOn with
  | ind n ih =>
      rcases Nat.lt_or_ge n 10 with small | large
      · rw [Nat.toDigits_of_lt_base small]
        have digits : ∀ n < 10, 0 < n → n.digitChar ≠ '0' := by decide
        simpa using digits n small h
      · have before := ih (n / 10) (by omega) (by omega)
        rw [Nat.toDigits_of_base_le (by decide) large]
        cases digits : Nat.toDigits 10 (n / 10) with
        | nil => exact absurd digits Nat.toDigits_ne_nil
        | cons c cs => simpa [digits] using before

theorem dropLeadingZeros_eq_self {whole : List Char} (nonempty : whole ≠ [])
    (h : whole.head? ≠ some '0') : dropLeadingZeros whole = whole := by
  obtain ⟨c, cs, rfl⟩ := List.exists_cons_of_ne_nil nonempty
  have other : (c == '0') = false := by simpa using h
  simp [dropLeadingZeros, other]

/-- The parts of a zero. -/
theorem exists_parts_of_zero {d : Decimal} (h : d.coefficient = 0) :
    ∃ n, d.parts = (['0'], List.replicate n '0') := by
  unfold parts
  split
  · exact ⟨0, rfl⟩
  · rename_i fractional
    have one : d.digits = List.replicate 1 '0' := by rw [digits, h]; rfl
    dsimp only
    generalize hp : (-d.exponent).toNat = places
    refine ⟨places, ?_⟩
    rw [one, List.replicate_append_replicate, List.length_replicate, List.splitAt_eq,
      List.take_replicate, List.drop_replicate]
    have take : min (places + 1 - 1 + 1 - places) (places + 1 - 1 + 1) = 1 := by omega
    have drop : places + 1 - 1 + 1 - (places + 1 - 1 + 1 - places) = places := by omega
    rw [List.length_replicate, take, drop]
    rfl

theorem dropLeadingZeros_layOut {digits : List Char} (nonempty : digits ≠ [])
    (h : digits.head? ≠ some '0') (point : Int) :
    dropLeadingZeros (layOut digits point).1 = (layOut digits point).1 := by
  unfold layOut
  split
  · rfl
  · rename_i positive
    obtain ⟨c, cs, rfl⟩ := List.exists_cons_of_ne_nil nonempty
    split
    · exact dropLeadingZeros_eq_self (by simp) (by simpa using h)
    · obtain ⟨p, hp⟩ : ∃ p, point.toNat = p + 1 := ⟨point.toNat - 1, by omega⟩
      rw [hp, List.splitAt_eq]
      exact dropLeadingZeros_eq_self (by simp) (by simpa using h)

/-- The plain notation is made of the parts, in which no zero stands that does not count. -/
theorem plainChars_eq_joinParts (d : Decimal) :
    d.plainChars = (if d.negative then ['-'] else []) ++ joinParts d.parts := by
  have whole : dropLeadingZeros d.parts.1 = d.parts.1 := by
    by_cases zero : d.coefficient = 0
    · obtain ⟨n, parts⟩ := exists_parts_of_zero zero
      rw [parts]
      rfl
    · rw [parts_eq_layOut zero]
      exact dropLeadingZeros_layOut Nat.toDigits_ne_nil
        (head?_toDigits_ne_zero (Nat.pos_of_ne_zero zero)) _
  rw [joinParts, whole, plainChars, ← List.append_assoc]
  rfl

/-! ### Reading scientific notation -/

/-- The power of ten of the text after the letter `e`; where there is no text it is zero. -/
def powerOfChars? : List Char → Option Int
  | [] => some 0
  | cs => exponentOfChars? ('e' :: cs)

/-- The characters before the first one of a kind, and those after it. -/
def partition (separator : Char) (cs : List Char) : List Char × List Char :=
  (cs.takeWhile (· != separator), (cs.dropWhile (· != separator)).tail)

/-- A minus sign, if there is one, and what follows it. -/
def takeMinus : List Char → List Char × List Char
  | '-' :: rest => (['-'], rest)
  | cs => ([], cs)

/-- The plain notation that a scientific notation amounts to. -/
def plainOfScientific? (cs : List Char) : Option (List Char) :=
  let (sign, text) := takeMinus cs
  let (mantissa, exponent) := partition 'e' text
  let (whole, fraction) := partition '.' mantissa
  (powerOfChars? exponent).map fun power =>
    sign ++ joinParts (layOut (whole ++ fraction) (whole.length + power))

theorem partition_append_cons {separator : Char} {cs : List Char} (h : separator ∉ cs)
    (rest : List Char) : partition separator (cs ++ separator :: rest) = (cs, rest) := by
  have keep : ∀ c ∈ cs, (c != separator) = true := by
    intro c hc
    rw [bne_iff_ne]
    rintro rfl
    exact h hc
  rw [partition, List.takeWhile_append_of_pos keep, List.dropWhile_append_of_pos keep]
  simp

theorem partition_of_not_mem {separator : Char} {cs : List Char} (h : separator ∉ cs) :
    partition separator cs = (cs, []) := by
  have keep : ∀ c ∈ cs, (c != separator) = true := by
    intro c hc
    rw [bne_iff_ne]
    rintro rfl
    exact h hc
  rw [partition, List.takeWhile_eq_self_iff.2 keep, List.dropWhile_eq_nil_iff.2 keep]
  rfl

theorem exponentOfChars?_of_digits {digits : List Char} (nonempty : digits ≠ [])
    (h : ∀ c ∈ digits, c.isDigit) (negative : Bool) :
    exponentOfChars? ('e' :: (if negative then '-' else '+') :: digits) =
      some (if negative then -(Nat.ofDigitChars 10 digits 0 : Int) else Nat.ofDigitChars 10 digits 0) := by
  obtain ⟨c, cs, rfl⟩ := List.exists_cons_of_ne_nil nonempty
  have all : (c :: cs).all isDigit := List.all_eq_true.2 fun c hc => isDigit_of_isDigit (h c hc)
  rw [← valueOfDigits_eq_ofDigitChars h]
  cases negative <;> simp only [exponentOfChars?, takeSign, all, reduceIte, true_or, Bool.false_eq_true]

/-- A written power of ten is a sign and digits, whatever zeros stand before these. -/
theorem exists_exponentChars (style : ScientificStyle) (e : Int) : ∃ digits, digits ≠ [] ∧
    (∀ c ∈ digits, c.isDigit) ∧ Nat.ofDigitChars 10 digits 0 = e.natAbs ∧
      exponentChars style e = 'e' :: (if decide (e < 0) then '-' else '+') :: digits := by
  let digits := Nat.toDigits 10 e.natAbs
  let padded := List.replicate (style.exponentDigits - digits.length) '0' ++ digits
  have allDigits : ∀ c ∈ padded, c.isDigit := isDigit_append (isDigit_replicate_zero _)
    fun c hc => Nat.isDigit_of_mem_toDigits (by decide) (by decide) hc
  have value : Nat.ofDigitChars 10 padded 0 = e.natAbs := by
    rw [Nat.ofDigitChars_append, Nat.ofDigitChars_replicate_zero, Nat.mul_zero,
      Nat.ofDigitChars_ten_toDigits]
  have nonempty : padded ≠ [] := by simp [padded, digits, Nat.toDigits_ne_nil]
  exact ⟨padded, nonempty, allDigits, value, by simp [exponentChars, padded, digits]⟩

theorem powerOfChars?_exponentChars (style : ScientificStyle) (e : Int) :
    powerOfChars? (exponentChars style e).tail = some e := by
  obtain ⟨digits, nonempty, allDigits, value, chars⟩ := exists_exponentChars style e
  rw [chars]
  refine (exponentOfChars?_of_digits nonempty allDigits (decide (e < 0))).trans (congrArg some ?_)
  rw [value]
  by_cases negative : e < 0
  · simp only [negative, decide_true, if_true]
    omega
  · simp only [negative, decide_false, Bool.false_eq_true, if_false]
    omega

/-- What follows the digits before the point of a scientific notation: a point and a fraction, if there
is one, and a power of ten, if there is one. -/
structure Continues (fraction : List Char) (e : Int) (point power : List Char) : Prop where
  digits : ∀ c ∈ fraction, c.isDigit
  point : point = '.' :: fraction ∨ point = [] ∧ fraction = []
  power : power = [] ∧ e = 0 ∨ ∃ cs, power = 'e' :: cs ∧ powerOfChars? cs = some e

theorem not_mem_of_isDigit {cs : List Char} (h : ∀ c ∈ cs, c.isDigit) {c : Char}
    (other : c.isDigit = false) : c ∉ cs := by
  intro hc
  rw [h c hc] at other
  cases other

theorem takeMinus_append (negative : Bool) {whole : List Char} (nonempty : whole ≠ [])
    (hw : ∀ c ∈ whole, c.isDigit) (rest : List Char) :
    takeMinus ((if negative then ['-'] else []) ++ (whole ++ rest)) =
      (if negative then ['-'] else [], whole ++ rest) := by
  obtain ⟨c, cs, rfl⟩ := List.exists_cons_of_ne_nil nonempty
  have minus : c ≠ '-' := fun e => not_mem_of_isDigit hw (c := '-') rfl (by simp [e])
  cases negative with
  | true => rfl
  | false => simp [takeMinus, minus]

theorem plainOfScientific?_digits (negative : Bool) {whole fraction point power : List Char} {e : Int}
    (nonempty : whole ≠ []) (hw : ∀ c ∈ whole, c.isDigit) (h : Continues fraction e point power) :
    plainOfScientific? ((if negative then ['-'] else []) ++ (whole ++ point ++ power)) =
      some ((if negative then ['-'] else []) ++
        joinParts (layOut (whole ++ fraction) (whole.length + e))) := by
  have mantissaFree : 'e' ∉ whole ++ point := by
    rw [List.mem_append, not_or]
    refine ⟨not_mem_of_isDigit hw rfl, ?_⟩
    rcases h.point with rfl | ⟨rfl, -⟩
    · simp [not_mem_of_isDigit h.digits (c := 'e') rfl]
    · simp
  have split : ∃ exponent, partition 'e' (whole ++ point ++ power) = (whole ++ point, exponent) ∧
      powerOfChars? exponent = some e := by
    rcases h.power with ⟨rfl, rfl⟩ | ⟨cs, rfl, read⟩
    · exact ⟨[], by rw [List.append_nil, partition_of_not_mem mantissaFree], rfl⟩
    · exact ⟨cs, partition_append_cons mantissaFree cs, read⟩
  have parts : partition '.' (whole ++ point) = (whole, fraction) := by
    have free : '.' ∉ whole := not_mem_of_isDigit hw rfl
    rcases h.point with rfl | ⟨rfl, rfl⟩
    · exact partition_append_cons free fraction
    · rw [List.append_nil, partition_of_not_mem free]
  obtain ⟨exponent, split, read⟩ := split
  have sign := takeMinus_append negative nonempty hw (point ++ power)
  rw [← List.append_assoc whole] at sign
  simp only [plainOfScientific?, sign, split, parts, read, Option.map_some]

theorem layOut_append {whole fraction : List Char} (hw : whole ≠ []) (hf : fraction ≠ []) :
    layOut (whole ++ fraction) whole.length = (whole, fraction) := by
  have before := List.length_pos_iff.2 hw
  have after := List.length_pos_iff.2 hf
  rw [layOut, if_neg (by omega), if_neg (by rw [List.length_append]; omega), Int.toNat_natCast,
    List.splitAt_eq, List.take_left, List.drop_left]

theorem joinParts_zeros (whole : List Char) (n : Nat) :
    joinParts (whole, List.replicate n '0') = joinParts (whole, []) := by
  have trimmed := dropTrailingZeros_append_zeros [] n
  rw [List.nil_append] at trimmed
  rw [joinParts, joinParts, trimmed]

theorem joinParts_dropTrailingZeros (whole fraction : List Char) :
    joinParts (whole, dropTrailingZeros fraction) = joinParts (whole, fraction) := by
  obtain ⟨n, split⟩ := exists_dropTrailingZeros fraction
  have trimmed := dropTrailingZeros_append_zeros (dropTrailingZeros fraction) n
  rw [← split] at trimmed
  simp only [joinParts, ← trimmed]

/-- The digits that count. -/
def significant (d : Decimal) : List Char :=
  if d.coefficient = 0 then ['0'] else dropTrailingZeros d.digits

/-- The power of ten of the leading digit. -/
def leading (d : Decimal) : Int :=
  if d.coefficient = 0 then 0 else d.digits.length - 1 + d.exponent

theorem significant_ne_nil (d : Decimal) : d.significant ≠ [] := by
  unfold significant
  split
  · simp
  · rename_i nonzero
    intro none
    obtain ⟨n, zeros⟩ := exists_dropTrailingZeros d.digits
    have head := head?_toDigits_ne_zero (Nat.pos_of_ne_zero nonzero)
    rw [none, List.nil_append, digits] at zeros
    rw [zeros] at head
    cases n with
    | zero => exact Nat.toDigits_ne_nil zeros
    | succ n => exact head rfl

theorem isDigit_significant (d : Decimal) : ∀ c ∈ d.significant, c.isDigit := by
  intro c hc
  unfold significant at hc
  split at hc
  · simp only [List.mem_singleton] at hc
    rw [hc]
    rfl
  · obtain ⟨n, split⟩ := exists_dropTrailingZeros d.digits
    exact d.isDigit_digits c (by rw [split]; simp [hc])

/-- The digits that count, laid out with the point after the leading power of ten. -/
theorem joinParts_layOut_significant (d : Decimal) :
    joinParts (layOut d.significant (1 + d.leading)) = joinParts d.parts := by
  by_cases zero : d.coefficient = 0
  · obtain ⟨n, parts⟩ := exists_parts_of_zero zero
    rw [significant, leading, if_pos zero, if_pos zero, parts, joinParts_zeros]
    rfl
  · obtain ⟨n, split⟩ := exists_dropTrailingZeros d.digits
    rw [significant, leading, if_neg zero, if_neg zero, parts_eq_layOut zero]
    have point : 1 + ((d.digits.length : Int) - 1 + d.exponent) = d.digits.length + d.exponent := by omega
    rw [point, ← joinParts_layOut_append_zeros _ n, ← split]

/-- A fraction that is written in any case. -/
def shownFraction (fraction : List Char) : List Char :=
  if fraction.isEmpty then ['0'] else fraction

theorem isDigit_shownFraction {fraction : List Char} (h : ∀ c ∈ fraction, c.isDigit) :
    ∀ c ∈ shownFraction fraction, c.isDigit := by
  unfold shownFraction
  split
  · exact isDigit_replicate_zero 1
  · exact h

theorem shownFraction_ne_nil (fraction : List Char) : shownFraction fraction ≠ [] := by
  cases fraction <;> simp [shownFraction]

theorem joinParts_shownFraction (whole fraction : List Char) :
    joinParts (whole, shownFraction fraction) = joinParts (whole, fraction) := by
  cases fraction with
  | nil => exact joinParts_zeros whole 1
  | cons c cs => rfl

theorem scientificChars_eq (style : ScientificStyle) (d : Decimal) :
    d.scientificChars style = (if d.negative then ['-'] else []) ++
      if style.leastPositional ≤ d.leading ∧ d.leading ≤ style.greatestPositional then
        d.parts.1 ++ '.' :: shownFraction (dropTrailingZeros d.parts.2) ++ []
      else d.significant.take 1 ++ pointed d.significant.tail ++ exponentChars style d.leading := by
  have positional : d.scientificChars style =
      if style.leastPositional ≤ d.leading ∧ d.leading ≤ style.greatestPositional then
        (if d.negative then ['-'] else []) ++ d.parts.1 ++
          '.' :: shownFraction (dropTrailingZeros d.parts.2)
      else (if d.negative then ['-'] else []) ++ d.significant.take 1 ++
        pointed d.significant.tail ++ exponentChars style d.leading := rfl
  rw [positional]
  split
  · rw [List.append_nil, List.append_assoc]
  · rw [List.append_assoc, List.append_assoc, List.append_assoc]

/-- **Plain from scientific notation.**  Whatever the style, the power of ten is an integer and the
digits laid out anew are the plain notation. -/
theorem plainOfScientific?_scientificChars (style : ScientificStyle) (d : Decimal) :
    plainOfScientific? (d.scientificChars style) = some d.plainChars := by
  rw [plainChars_eq_joinParts, scientificChars_eq]
  by_cases positional : style.leastPositional ≤ d.leading ∧ d.leading ≤ style.greatestPositional
  · rw [if_pos positional]
    have writes := d.writes_parts.dropZeros
    have continues : Continues (shownFraction (dropTrailingZeros d.parts.2)) 0
        ('.' :: shownFraction (dropTrailingZeros d.parts.2)) [] :=
      ⟨isDigit_shownFraction writes.fractionDigits, .inl rfl, .inl ⟨rfl, rfl⟩⟩
    rw [plainOfScientific?_digits d.negative writes.nonempty writes.wholeDigits continues, Int.add_zero,
      layOut_append writes.nonempty (shownFraction_ne_nil _), joinParts_shownFraction,
      joinParts_dropTrailingZeros]
  · rw [if_neg positional, ← joinParts_layOut_significant]
    have digits := d.isDigit_significant
    obtain ⟨c, cs, some⟩ := List.exists_cons_of_ne_nil d.significant_ne_nil
    rw [some] at digits ⊢
    obtain ⟨first, others⟩ := List.forall_mem_cons.1 digits
    have continues : Continues cs d.leading (pointed cs) (exponentChars style d.leading) := by
      refine ⟨others, ?_, .inr ⟨_, rfl, powerOfChars?_exponentChars style d.leading⟩⟩
      cases cs with
      | nil => exact .inr ⟨rfl, rfl⟩
      | cons c cs => exact .inl rfl
    have whole : ∀ d ∈ [c], d.isDigit := List.forall_mem_singleton.2 first
    exact plainOfScientific?_digits d.negative (List.cons_ne_nil c []) whole continues

end DynLisp.Decimal
