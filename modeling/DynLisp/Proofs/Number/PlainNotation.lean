import DynLisp.Number.Plain
import DynLisp.Number.Numeral
import DynLisp.Token.Lexer
import DynLisp.Proofs.Number.BitPattern
import DynLisp.Proofs.Number.Shortest

/-! # Plain notation reads back

A decimal in plain notation is read as a decimal of the same sign and magnitude
(`ofChars?_plainChars`), although its coefficient may differ by a power of ten.  Since reading depends
on the magnitude alone, a number in plain notation is read as this number (`read?_plain`). -/

namespace DynLisp

namespace Text

/-! ### ASCII digits -/

theorem digitValue?_of_isDigit {c : Char} (h : c.isDigit) : digitValue? c = some (c.toNat - 48) := by
  obtain ⟨low, high⟩ := Char.isDigit_iff_toNat.1 h
  have first : (0x30 ≤ c.toNat && c.toNat < 0x30 + 10) = true := by
    simp only [Bool.and_eq_true, decide_eq_true_eq]
    exact ⟨low, Nat.lt_succ_of_le high⟩
  have found : (digitZeros.find? fun z => z ≤ c.toNat && c.toNat < z + 10) = some 0x30 :=
    List.find?_cons_of_pos first
  rw [digitValue?, found]
  rfl

theorem isDigit_of_isDigit {c : Char} (h : c.isDigit) : isDigit c := by
  simp [isDigit, digitValue?_of_isDigit h]

theorem valueOfDigits_eq_ofDigitChars {cs : List Char} (h : ∀ c ∈ cs, c.isDigit) :
    valueOfDigits cs = Nat.ofDigitChars 10 cs 0 := by
  have fold : ∀ (cs : List Char) (n : Nat), (∀ c ∈ cs, c.isDigit) →
      cs.foldl (fun n c => 10 * n + (digitValue? c).getD 0) n = Nat.ofDigitChars 10 cs n := by
    intro cs
    induction cs with
    | nil =>
        intro n _
        rfl
    | cons c cs ih =>
        intro n h
        rw [List.foldl_cons, Nat.ofDigitChars_cons, ih _ fun d hd => h d (by simp [hd]),
          digitValue?_of_isDigit (h c (by simp))]
        rfl
  exact fold cs 0 h

end Text

namespace Decimal

open Text

/-! ### Whole part and fraction -/

/-- The digits around the point are ASCII, there are some before it, and together they have the
magnitude of the decimal. -/
structure Writes (d : Decimal) (whole fraction : List Char) : Prop where
  wholeDigits : ∀ c ∈ whole, c.isDigit
  fractionDigits : ∀ c ∈ fraction, c.isDigit
  nonempty : whole ≠ []
  value : (Nat.ofDigitChars 10 (whole ++ fraction) 0 : Rat) * 10 ^ (-(fraction.length : Int)) =
    d.magnitude

theorem isDigit_digits (d : Decimal) : ∀ c ∈ d.digits, c.isDigit :=
  fun _ h => Nat.isDigit_of_mem_toDigits (by decide) (by decide) h

theorem isDigit_replicate_zero (n : Nat) : ∀ c ∈ List.replicate n '0', c.isDigit := by
  intro c h
  rw [List.eq_of_mem_replicate h]
  rfl

theorem isDigit_append {cs ds : List Char} (hc : ∀ c ∈ cs, c.isDigit) (hd : ∀ c ∈ ds, c.isDigit) :
    ∀ c ∈ cs ++ ds, c.isDigit := by
  intro c h
  rcases List.mem_append.1 h with h | h
  · exact hc c h
  · exact hd c h

theorem writes_parts (d : Decimal) : Writes d d.parts.1 d.parts.2 := by
  unfold parts
  split
  · rename_i whole
    obtain ⟨n, hn⟩ := Int.eq_ofNat_of_zero_le whole
    by_cases zero : d.coefficient = 0
    · rw [if_pos zero]
      exact ⟨by simp, by simp, by simp, by simp [magnitude, zero, Nat.ofDigitChars]⟩
    · rw [if_neg zero]
      refine ⟨isDigit_append d.isDigit_digits (isDigit_replicate_zero _), by simp, ?_, ?_⟩
      · simp [digits, Nat.toDigits_ne_nil]
      · rw [List.append_nil, Nat.ofDigitChars_append, Nat.ofDigitChars_replicate_zero, digits,
          Nat.ofDigitChars_ten_toDigits, magnitude, hn]
        simp [mul_comm]
  · rename_i fractional
    dsimp only
    generalize hp : (-d.exponent).toNat = places
    generalize hw : List.replicate (places + 1 - d.digits.length) '0' ++ d.digits = padded
    have allDigits : ∀ c ∈ padded, c.isDigit := by
      rw [← hw]
      exact isDigit_append (isDigit_replicate_zero _) d.isDigit_digits
    have long : places < padded.length := by
      rw [← hw]
      simp only [List.length_append, List.length_replicate]
      omega
    have value : Nat.ofDigitChars 10 padded 0 = d.coefficient := by
      rw [← hw, Nat.ofDigitChars_append, Nat.ofDigitChars_replicate_zero, Nat.mul_zero, digits,
        Nat.ofDigitChars_ten_toDigits]
    have exponent : d.exponent = -(places : Int) := by omega
    rw [List.splitAt_eq]
    refine ⟨fun c h => allDigits c (List.mem_of_mem_take h),
      fun c h => allDigits c (List.mem_of_mem_drop h), ?_, ?_⟩
    · intro empty
      have := congrArg List.length empty
      simp only [List.length_take, List.length_nil] at this
      omega
    · have length : (padded.drop (padded.length - places)).length = places := by
        rw [List.length_drop]
        omega
      rw [List.take_append_drop, length, value, magnitude, exponent]

theorem takeWhile_zero (cs : List Char) :
    cs.takeWhile (· == '0') = List.replicate (cs.takeWhile (· == '0')).length '0' := by
  refine List.eq_replicate_of_mem fun c h => ?_
  simpa using List.all_eq_true.1 List.all_takeWhile c h

theorem exists_dropTrailingZeros (cs : List Char) :
    ∃ n, cs = dropTrailingZeros cs ++ List.replicate n '0' := by
  refine ⟨(cs.reverse.takeWhile (· == '0')).length, ?_⟩
  calc cs = (cs.reverse.takeWhile (· == '0') ++ cs.reverse.dropWhile (· == '0')).reverse := by
        rw [List.takeWhile_append_dropWhile, List.reverse_reverse]
    _ = dropTrailingZeros cs ++ (List.replicate (cs.reverse.takeWhile (· == '0')).length '0').reverse := by
        rw [List.reverse_append, ← takeWhile_zero]
        rfl
    _ = dropTrailingZeros cs ++ List.replicate (cs.reverse.takeWhile (· == '0')).length '0' := by
        rw [List.reverse_replicate]

/-- Zeros at the end of the fraction do not count. -/
theorem Writes.dropZeros {d : Decimal} {whole fraction : List Char} (h : Writes d whole fraction) :
    Writes d whole (dropTrailingZeros fraction) := by
  obtain ⟨n, e⟩ := exists_dropTrailingZeros fraction
  refine ⟨h.wholeDigits, fun c hc => h.fractionDigits c (by rw [e]; simp [hc]), h.nonempty, ?_⟩
  have value := h.value
  rw [e, ← List.append_assoc, Nat.ofDigitChars_append, Nat.ofDigitChars_replicate_zero] at value
  rw [← value, List.length_append, List.length_replicate]
  push_cast
  rw [neg_add, zpow_add₀ (by norm_num), zpow_neg _ (n : Int), zpow_natCast]
  field_simp

/-- The characters of a plain notation: a sign, the whole part, and a fraction if there is one. -/
theorem exists_writes_plainChars (d : Decimal) : ∃ whole fraction, Writes d whole fraction ∧
    d.plainChars = (if d.negative then ['-'] else []) ++
      (whole ++ if fraction = [] then [] else '.' :: fraction) := by
  refine ⟨_, _, d.writes_parts.dropZeros, ?_⟩
  simp only [plainChars, List.append_assoc]
  congr 2
  split
  · rename_i none
    rw [if_pos none]
  · rename_i some
    rw [if_neg some]

/-! ### Reading -/

theorem takeSign_of_writes {d : Decimal} {whole fraction : List Char} (h : Writes d whole fraction)
    (rest : List Char) : takeSign ((if d.negative then ['-'] else []) ++ (whole ++ rest)) =
      (d.negative, whole ++ rest) := by
  obtain ⟨c, cs, rfl⟩ := List.exists_cons_of_ne_nil h.nonempty
  have digit := h.wholeDigits c (by simp)
  cases d.negative with
  | true => rfl
  | false =>
      have plus : c ≠ '+' := fun e => by simp [e] at digit
      have minus : c ≠ '-' := fun e => by simp [e] at digit
      simp [takeSign, plus, minus]

theorem ofChars?_of_writes {d : Decimal} {whole fraction : List Char} (h : Writes d whole fraction) :
    ofChars? ((if d.negative then ['-'] else []) ++
        (whole ++ if fraction = [] then [] else '.' :: fraction)) =
      some ⟨d.negative, valueOfDigits (whole ++ fraction), -(fraction.length : Int)⟩ := by
  have wholeDigits : ∀ c ∈ whole, isDigit c := fun c hc => isDigit_of_isDigit (h.wholeDigits c hc)
  have fractionDigits : ∀ c ∈ fraction, isDigit c :=
    fun c hc => isDigit_of_isDigit (h.fractionDigits c hc)
  have point : isDigit '.' = false := by decide
  have nonempty := h.nonempty
  simp only [ofChars?, takeSign_of_writes h]
  rw [List.takeWhile_append_of_pos wholeDigits, List.dropWhile_append_of_pos wholeDigits]
  by_cases none : fraction = []
  · simp [none, nonempty, takeFraction, exponentOfChars?]
  · have all : fraction.takeWhile isDigit = fraction := by
      simpa using @List.takeWhile_append_of_pos _ isDigit fraction [] fractionDigits
    have rest : fraction.dropWhile isDigit = [] := by
      simpa using @List.dropWhile_append_of_pos _ isDigit fraction [] fractionDigits
    simp [none, nonempty, point, takeFraction, exponentOfChars?, all, rest]

/-- A decimal in plain notation is read with its sign and its magnitude. -/
theorem ofChars?_plainChars (d : Decimal) : ∃ e, ofChars? d.plainChars = some e ∧
    e.negative = d.negative ∧ e.magnitude = d.magnitude := by
  obtain ⟨whole, fraction, writes, chars⟩ := d.exists_writes_plainChars
  rw [chars]
  refine ⟨_, ofChars?_of_writes writes, rfl, ?_⟩
  rw [magnitude,
    valueOfDigits_eq_ofDigitChars (isDigit_append writes.wholeDigits writes.fractionDigits)]
  exact writes.value

/-! ### The characters -/

/-- What decimals in plain notation are made of. -/
def isPlainChar (c : Char) : Bool :=
  c.isDigit || c == '-' || c == '.'

theorem isPlainChar_plainChars (d : Decimal) : ∀ c ∈ d.plainChars, isPlainChar c := by
  obtain ⟨whole, fraction, writes, chars⟩ := d.exists_writes_plainChars
  have digit {c : Char} (h : c.isDigit) : isPlainChar c := by simp [isPlainChar, h]
  have sign : ∀ c ∈ (if d.negative then ['-'] else []), isPlainChar c := by
    cases d.negative <;> simp [isPlainChar]
  have pointed : ∀ c ∈ (if fraction = [] then [] else '.' :: fraction), isPlainChar c := by
    intro c hc
    split at hc
    · cases hc
    · rcases List.mem_cons.1 hc with rfl | hc
      · rfl
      · exact digit (writes.fractionDigits c hc)
  intro c hc
  rw [chars, List.mem_append, List.mem_append] at hc
  rcases hc with hc | hc | hc
  · exact sign c hc
  · exact digit (writes.wholeDigits c hc)
  · exact pointed c hc

theorem plainChars_ne_nil (d : Decimal) : d.plainChars ≠ [] := by
  obtain ⟨whole, fraction, writes, chars⟩ := d.exists_writes_plainChars
  rw [chars]
  simp [writes.nonempty]

/-- Characters of the plain notation may stand in literals, are no blanks and occur in no word. -/
theorem isLiteralChar_of_isPlainChar {c : Char} (h : isPlainChar c) :
    Token.isLiteralChar c ∧ Numeral.isMargin c = false ∧ c.toLower ≠ 'n' := by
  have all : ∀ n < 58, 45 ≤ n → Token.isLiteralChar (Char.ofNat n) ∧
      Numeral.isMargin (Char.ofNat n) = false ∧ (Char.ofNat n).toLower ≠ 'n' := by decide
  have range : c.toNat < 58 ∧ 45 ≤ c.toNat := by
    simp only [isPlainChar, Bool.or_eq_true, beq_iff_eq, Char.isDigit_iff_toNat] at h
    rcases h with (⟨low, high⟩ | rfl) | rfl
    · exact ⟨Nat.lt_succ_of_le high, Nat.le_trans (by decide) low⟩
    · decide
    · decide
  have := all c.toNat range.1 range.2
  rwa [Char.ofNat_toNat] at this

end Decimal

/-! ### Numbers -/

namespace Numeral

open Text

theorem trimBoth_eq_self {p : Char → Bool} {cs : List Char} (h : ∀ c ∈ cs, p c = false) :
    trimBoth p cs = cs := by
  have keep {ds : List Char} (hd : ∀ c ∈ ds, p c = false) : ds.dropWhile p = ds := by
    cases ds with
    | nil => rfl
    | cons c rest => rw [List.dropWhile_cons_of_neg (by simp [hd c (by simp)])]
  rw [trimBoth, keep h, keep fun c hc => h c (List.mem_reverse.1 hc), List.reverse_reverse]

/-- All words that write numbers have an `n`. -/
theorem ofWord?_eq_none {word : List Char} (h : 'n' ∉ word) (negative : Bool) :
    ofWord? negative word = none := by
  have other {text : List Char} (ht : 'n' ∈ text) : word ≠ text := fun e => h (e ▸ ht)
  rw [ofWord?, if_neg (other (by decide)), if_neg]
  rintro (e | e)
  · exact other (by decide) e
  · exact other (by decide) e

theorem mem_of_mem_takeSign {c : Char} {cs : List Char} (h : c ∈ (Decimal.takeSign cs).2) :
    c ∈ cs := by
  unfold Decimal.takeSign at h
  split at h
  · exact List.mem_cons_of_mem _ h
  · exact List.mem_cons_of_mem _ h
  · exact h

theorem ofChars?_plainChars (d : Decimal) :
    ∃ e : Decimal, ofChars? d.plainChars = some e.toFloat ∧ e.negative = d.negative ∧
      e.magnitude = d.magnitude := by
  obtain ⟨e, read, sign, magnitude⟩ := d.ofChars?_plainChars
  have noWord : 'n' ∉ (Decimal.takeSign d.plainChars).2.map Char.toLower := by
    intro h
    obtain ⟨c, hc, lower⟩ := List.mem_map.1 h
    have plain := d.isPlainChar_plainChars c (mem_of_mem_takeSign hc)
    exact (Decimal.isLiteralChar_of_isPlainChar plain).2.2 lower
  refine ⟨e, ?_, sign, magnitude⟩
  simp only [ofChars?]
  rw [ofWord?_eq_none noWord, read]
  rfl

/-- Every number is read back from its plain notation, infinities and NaN included. -/
theorem read?_plain (x : Float) : read? (plain x) = some x := by
  rw [read?, plain, String.toList_ofList, plainChars]
  split
  · rename_i nan
    rw [Binary64.eq_nan_of_isNaN nan]
    rfl
  · rename_i number
    split
    · rename_i inf
      have value := Binary64.ofPattern_pattern x
      rw [(Binary64.isInf_iff x).1 inf] at value
      have word (negative : Bool) : ofChars? (trimBoth isMargin
          ((if negative then ['-'] else []) ++ ['i', 'n', 'f'])) =
            some (Binary64.infinity negative) := by
        cases negative <;> rfl
      rw [word, Binary64.infinity, value]
    · rename_i finite
      have below : Binary64.pattern x < Binary64.infinityPattern := by
        rw [Binary64.isInf_iff] at finite
        rw [Binary64.isNaN_iff] at number
        omega
      have noMargin : ∀ c ∈ (Binary64.shortest x).plainChars, isMargin c = false :=
        fun c hc => (Decimal.isLiteralChar_of_isPlainChar (Decimal.isPlainChar_plainChars _ c hc)).2.1
      obtain ⟨e, read, sign, magnitude⟩ := ofChars?_plainChars (Binary64.shortest x)
      rw [trimBoth_eq_self noMargin, read, Decimal.toFloat, sign,
        Decimal.pattern_eq_of_magnitude_eq magnitude]
      show some (Binary64.shortest x).toFloat = _
      rw [Binary64.toFloat_shortest below, Binary64.ofPattern_pattern]

theorem isLiteralChar_plain (x : Float) : ∀ c ∈ (plain x).toList, Token.isLiteralChar c := by
  rw [plain, String.toList_ofList, plainChars]
  split
  · exact List.all_eq_true.1 (by decide)
  · split
    · apply List.all_eq_true.1
      cases Binary64.isNegative x <;> decide
    · intro c hc
      exact (Decimal.isLiteralChar_of_isPlainChar (Decimal.isPlainChar_plainChars _ c hc)).1

theorem plain_ne_nil (x : Float) : (plain x).toList ≠ [] := by
  rw [plain, String.toList_ofList, plainChars]
  split
  · decide
  · split
    · simp
    · exact Decimal.plainChars_ne_nil _

end Numeral
end DynLisp
