import Mathlib.Data.Nat.Find
import Mathlib.Order.Bounds.Defs
import DynLisp.Proofs.Spelling

/-! # Where reading stops

Reading goes through lists inside one another, but where it stops and why is told by a flat count: the
balance of some tokens is how many parentheses open among them less how many close.

* Where an expression can begin, reading stops at the first place behind which the balance is zero, if
  only the kinds of the lexer stand before it.
* A token of another kind stops it earlier, and without either it comes to the end of the tokens.

The number of open lists is the balance of the tokens passed: `readFrom_step` for one token,
`readFrom_inside` and `readFrom_begins` for as many as leave a list open. -/

namespace DynLisp

/-- What a token of this kind adds to the number of open lists. -/
def TokenKind.level : TokenKind → Int
  | opening => 1
  | closing => -1
  | _ => 0

namespace Token

/-- The opening parentheses less the closing ones. -/
def balance (ts : List Token) : Int :=
  (ts.map (·.kind)).count .opening - (ts.map (·.kind)).count .closing

@[simp] theorem balance_nil : balance [] = 0 := rfl

theorem balance_cons (t : Token) (ts : List Token) :
    balance (t :: ts) = t.kind.level + balance ts := by
  cases h : t.kind <;> simp [balance, TokenKind.level, h] <;> omega

theorem balance_append (ts us : List Token) : balance (ts ++ us) = balance ts + balance us := by
  induction ts with
  | nil => simp
  | cons t ts ih => rw [List.cons_append, balance_cons, balance_cons, ih, Int.add_assoc]

/-- Tokens with which an expression begins but does not end: the lists they open are not all closed
again. -/
structure Begins (ts : List Token) : Prop where
  first : ∃ t, ts.head? = some t ∧ t.kind ≠ .closing
  known : ∀ t ∈ ts, t.kind.isForeign = false
  unfinished : ∀ p, p <+: ts → p ≠ [] → balance p ≠ 0

theorem Begins.balance_ne_zero {ts : List Token} (h : Begins ts) : balance ts ≠ 0 := by
  obtain ⟨t, head, -⟩ := h.first
  apply h.unfinished ts List.prefix_rfl
  rintro rfl
  cases head

/-- The first place behind `i` where all lists opened since are closed again. -/
def ClosesAt (tokens : List Token) (i j : Nat) : Prop :=
  IsLeast {j | i < j ∧ balance (tokens.extract i j) = 0} j

end Token

open Token

namespace Expr

/-! ### Reading among open lists -/

/-- A token after which a list is still open is passed, unless too many lists are. -/
theorem readFrom_step (limit : Nat) {t : Token} {opened : List (List Expr)}
    (known : t.kind.isForeign = false) (inside : opened ≠ [])
    (unfinished : (opened.length : Int) + t.kind.level ≠ 0) (rest : List Token) :
    (readFrom limit opened (t :: rest)).1 = .error .nestedTooDeeply ∨
      ∃ opened', readFrom limit opened (t :: rest) = readFrom limit opened' rest ∧
        (opened'.length : Int) = opened.length + t.kind.level := by
  obtain ⟨items, outer, rfl⟩ := List.exists_cons_of_ne_nil inside
  cases hk : t.kind with
  | literal =>
      right
      rw [readFrom_literal hk]
      exact ⟨(ofLiteral t.text :: items) :: outer, rfl, by simp [TokenKind.level]⟩
  | opening =>
      by_cases hl : (items :: outer).length < limit
      · right
        rw [readFrom_opening hk hl]
        exact ⟨[] :: items :: outer, rfl, by simp [TokenKind.level]⟩
      · left
        rw [readFrom_opening_full hk (Nat.le_of_not_lt hl)]
  | closing =>
      right
      rw [readFrom_closing hk]
      cases outer with
      | nil => simp [hk, TokenKind.level] at unfinished
      | cons next outer =>
          refine ⟨(list items.reverse :: next) :: outer, rfl, ?_⟩
          simp only [List.length_cons, TokenKind.level]
          omega
  | foreign name => simp [hk, TokenKind.isForeign] at known

/-- Tokens all through which a list is open are passed, and the balance says how many lists are open
after them. -/
theorem readFrom_inside {limit : Nat} (rest : List Token) :
    ∀ {passed : List Token} {opened : List (List Expr)},
      (∀ t ∈ passed, t.kind.isForeign = false) →
      (∀ p, p <+: passed → (opened.length : Int) + balance p ≠ 0) →
        (readFrom limit opened (passed ++ rest)).1 = .error .nestedTooDeeply ∨
          ∃ opened', readFrom limit opened (passed ++ rest) = readFrom limit opened' rest ∧
            (opened'.length : Int) = opened.length + balance passed
  | [], opened, _, _ => .inr ⟨opened, rfl, by simp⟩
  | t :: passed, opened, known, unfinished => by
      rw [List.forall_mem_cons] at known
      have inside : opened ≠ [] := by
        rintro rfl
        exact unfinished [] (List.nil_prefix) (by simp)
      have stillOpen : (opened.length : Int) + t.kind.level ≠ 0 := by
        have := unfinished [t] (by simp)
        simpa [balance_cons] using this
      rcases readFrom_step limit known.1 inside stillOpen (passed ++ rest) with
        deep | ⟨opened', step, length⟩
      · exact .inl deep
      · have further : ∀ p, p <+: passed → (opened'.length : Int) + balance p ≠ 0 := by
          intro p hp
          have := unfinished (t :: p) (List.cons_prefix_cons.2 ⟨rfl, hp⟩)
          rwa [balance_cons, ← Int.add_assoc, ← length] at this
        rw [List.cons_append, step, balance_cons, ← Int.add_assoc, ← length]
        exact readFrom_inside rest known.2 further

/-- After tokens with which an expression begins, as many lists are open as their balance says. -/
theorem readFrom_begins (limit : Nat) {passed : List Token} (h : Begins passed) (rest : List Token) :
    (readFrom limit [] (passed ++ rest)).1 = .error .nestedTooDeeply ∨
      ∃ opened, readFrom limit [] (passed ++ rest) = readFrom limit opened rest ∧
        (opened.length : Int) = balance passed := by
  obtain ⟨t, head, notClosing⟩ := h.first
  obtain ⟨passed, rfl⟩ := List.head?_eq_some_iff.1 head
  have known := h.known t (by simp)
  have unfinished : balance [t] ≠ 0 := h.unfinished [t] (by simp) (by simp)
  cases hk : t.kind with
  | opening =>
      by_cases hl : ([] : List (List Expr)).length < limit
      · rw [List.cons_append, readFrom_opening hk hl, balance_cons, hk]
        refine readFrom_inside rest (fun u hu => h.known u (by simp [hu])) ?_
        intro p hp
        have := h.unfinished (t :: p) (List.cons_prefix_cons.2 ⟨rfl, hp⟩) (by simp)
        rwa [balance_cons, hk] at this
      · left
        rw [List.cons_append, readFrom_opening_full hk (Nat.le_of_not_lt hl)]
  | closing => exact absurd hk notClosing
  | literal => simp [balance_cons, hk, TokenKind.level] at unfinished
  | foreign name => simp [hk, TokenKind.isForeign] at known

/-! ### The three ways to stop -/

/-- Where the balance is zero for the first time, the expression ends. -/
theorem readFrom_of_balanced (limit : Nat) {passed : List Token} {last : Token}
    (h : passed = [] ∧ last.kind ≠ .closing ∨ Begins passed) (known : last.kind.isForeign = false)
    (balanced : balance (passed ++ [last]) = 0) (rest : List Token) :
    (readFrom limit [] (passed ++ last :: rest)).1 = .error .nestedTooDeeply ∨
      ∃ e, readFrom limit [] (passed ++ last :: rest) = (.ok e, rest) := by
  rw [balance_append, balance_cons, balance_nil, Int.add_zero] at balanced
  rcases h with ⟨rfl, notClosing⟩ | begins
  · have literal : last.kind = .literal := by
      cases hk : last.kind with
      | literal => rfl
      | opening => simp [hk, TokenKind.level] at balanced
      | closing => exact absurd hk notClosing
      | foreign name => simp [hk, TokenKind.isForeign] at known
    exact .inr ⟨_, readFrom_literal literal [] rest⟩
  · rcases readFrom_begins limit begins (last :: rest) with deep | ⟨opened, eq, length⟩
    · exact .inl deep
    right
    have unfinished := begins.balance_ne_zero
    -- some list is open, so the last token closes it, and it is the only one
    have closing : last.kind = .closing := by
      cases hk : last.kind with
      | closing => rfl
      | opening | literal | foreign =>
          simp only [hk, TokenKind.level] at balanced
          omega
    rw [closing, TokenKind.level] at balanced
    obtain ⟨items, rfl⟩ : ∃ items, opened = [items] := List.length_eq_one_iff.1 (by omega)
    exact ⟨_, eq.trans (readFrom_closing closing items [] rest)⟩

/-- A foreign token before that stops reading. -/
theorem readFrom_of_foreign (limit : Nat) {passed : List Token} {t : Token}
    (h : passed = [] ∨ Begins passed) (ht : t.kind.isForeign) (rest : List Token) :
    (readFrom limit [] (passed ++ t :: rest)).1 = .error .nestedTooDeeply ∨
      readFrom limit [] (passed ++ t :: rest) = (.error (.unknownToken t), t :: rest) := by
  rcases h with rfl | begins
  · exact .inr (readFrom_foreign ht [] rest)
  · refine (readFrom_begins limit begins (t :: rest)).imp id ?_
    rintro ⟨opened, eq, -⟩
    rw [eq, readFrom_foreign ht]

/-- Without either, reading comes to the end. -/
theorem readFrom_of_unfinished (limit : Nat) {passed : List Token} (h : Begins passed) :
    (readFrom limit [] passed).1 = .error .nestedTooDeeply ∨
      readFrom limit [] passed = (.error .unclosed, []) := by
  have begins := readFrom_begins limit h []
  rw [List.append_nil] at begins
  refine begins.imp id ?_
  rintro ⟨opened, eq, length⟩
  cases opened with
  | nil => exact absurd length.symm h.balance_ne_zero
  | cons items outer =>
      rw [eq, readFrom]
      rfl

/-- Lists that are never more than the limit are not too many. -/
theorem readFrom_of_balance_le {limit : Nat} : ∀ {ahead : List Token} {opened : List (List Expr)},
    (∀ p, p <+: ahead → (opened.length : Int) + balance p ≤ limit) →
      (readFrom limit opened ahead).1 ≠ .error .nestedTooDeeply
  | [], opened, _ => by
      rw [readFrom]
      split <;> simp
  | t :: ahead, opened, bound => by
      have further {opened' : List (List Expr)}
          (length : (opened'.length : Int) = opened.length + t.kind.level) :
          (readFrom limit opened' ahead).1 ≠ .error .nestedTooDeeply := by
        apply readFrom_of_balance_le
        intro p hp
        have := bound (t :: p) (List.cons_prefix_cons.2 ⟨rfl, hp⟩)
        rwa [balance_cons, ← Int.add_assoc, ← length] at this
      cases hk : t.kind with
      | literal =>
          rw [readFrom_literal hk]
          cases opened with
          | nil => simp [continueWith]
          | cons items outer => exact further (by simp [hk, TokenKind.level])
      | opening =>
          have room := bound [t] (by simp)
          simp only [balance_cons, hk, TokenKind.level, balance_nil] at room
          rw [readFrom_opening hk (by omega)]
          exact further (by simp [hk, TokenKind.level])
      | closing =>
          cases opened with
          | nil => simp [readFrom, hk]
          | cons items outer =>
              rw [readFrom_closing hk]
              cases outer with
              | nil => simp [continueWith]
              | cons next outer =>
                  refine further ?_
                  simp only [List.length_cons, hk, TokenKind.level]
                  omega
      | foreign name =>
          rw [readFrom_foreign (by simp [hk, TokenKind.isForeign])]
          simp

end Expr

/-! ### Places in a token sequence -/

namespace Token

theorem extract_of_length_le {tokens : List Token} {k : Nat} (h : tokens.length ≤ k) (i : Nat) :
    tokens.extract i k = tokens.drop i := by
  rw [List.extract_eq_take_drop, List.take_of_length_le]
  simp only [List.length_drop]
  omega

theorem drop_eq_extract_append_cons {tokens : List Token} {i k : Nat} {t : Token} (h : i ≤ k)
    (ht : tokens[k]? = some t) :
    tokens.drop i = tokens.extract i k ++ t :: tokens.drop (k + 1) := by
  obtain ⟨hk, rfl⟩ := List.getElem?_eq_some_iff.1 ht
  rw [drop_eq_extract_append tokens h, List.drop_eq_getElem_cons hk]

/-- A part of some tokens that begins where they begin is a slice too. -/
theorem eq_extract_of_append {tokens p : List Token} {i k : Nat} (h : p <+: tokens.extract i k) :
    p = tokens.extract i (i + p.length) ∧ i + p.length ≤ max i k := by
  have length := h.length_le
  simp only [List.extract_eq_take_drop, List.length_take, List.length_drop] at length
  have eq := List.prefix_iff_eq_take.1 h
  rw [List.extract_eq_take_drop, List.take_take, Nat.min_eq_left (by omega)] at eq
  refine ⟨?_, by omega⟩
  rw [List.extract_eq_take_drop, Nat.add_sub_cancel_left]
  exact eq

/-- If some token from `i` on is foreign, there is a first one. -/
theorem exists_first_foreign {tokens : List Token} {i : Nat} {v : Token} (hv : v ∈ tokens.drop i)
    (foreign : v.kind.isForeign) : ∃ k u, i ≤ k ∧ tokens[k]? = some u ∧ u.kind.isForeign ∧
      ∀ w ∈ tokens.extract i k, w.kind.isForeign = false := by
  have found : ((tokens.drop i).find? (·.kind.isForeign)).isSome := List.find?_isSome.2 ⟨v, hv, foreign⟩
  obtain ⟨u, hu⟩ := Option.isSome_iff_exists.1 found
  obtain ⟨foreignHere, passed, rest, cut, known⟩ := List.find?_eq_some_iff_append.1 hu
  refine ⟨i + passed.length, u, by omega, ?_, foreignHere, ?_⟩
  · rw [← List.getElem?_drop, cut]
    simp
  · rw [List.extract_eq_take_drop, Nat.add_sub_cancel_left, cut, List.take_left]
    simpa using known

theorem exists_closesAt {tokens : List Token} {i l : Nat} (hl : i < l)
    (balanced : balance (tokens.extract i l) = 0) : ∃ j, ClosesAt tokens i j ∧ j ≤ l := by
  have some : ∃ j, i < j ∧ balance (tokens.extract i j) = 0 := ⟨l, hl, balanced⟩
  classical
  exact ⟨Nat.find some, ⟨Nat.find_spec some, fun j hj => Nat.find_min' some hj⟩,
    Nat.find_min' some ⟨hl, balanced⟩⟩

section
variable {tokens : List Token} {i : Nat} {t : Token} (ht : tokens[i]? = some t)

include ht

/-- The end of an expression is no place beyond the tokens. -/
theorem ClosesAt.le_length {j : Nat} (h : ClosesAt tokens i j) : j ≤ tokens.length := by
  obtain ⟨hi, -⟩ := List.getElem?_eq_some_iff.1 ht
  by_contra beyond
  have same : tokens.extract i tokens.length = tokens.extract i j := by
    rw [extract_of_length_le (Nat.le_refl _), extract_of_length_le (Nat.le_of_not_le beyond)]
  exact beyond (h.2 ⟨hi, same ▸ h.1.2⟩)

/-- As long as the expression at `i` has not ended, its tokens begin it. -/
theorem begins_extract (notClosing : t.kind ≠ .closing) {k : Nat} (hik : i < k)
    (known : ∀ u ∈ tokens.extract i k, u.kind.isForeign = false)
    (unfinished : ∀ j, ClosesAt tokens i j → k < j) : Begins (tokens.extract i k) where
  first := by
    refine ⟨t, ?_, notClosing⟩
    have ne : k - i ≠ 0 := by omega
    simp [List.extract_eq_take_drop, List.head?_take, List.head?_drop, ne, ht]
  known := known
  unfinished p hp ne balanced := by
    obtain ⟨eq, le⟩ := eq_extract_of_append hp
    have positive := List.length_pos_iff.2 ne
    rw [eq] at balanced
    obtain ⟨j, closes, hj⟩ := exists_closesAt (by omega) balanced
    have := unfinished j closes
    omega

end

end Token

namespace Cursor

theorem parse_of_readFrom {limit : Nat} {tokens : List Token} {i j : Nat}
    {outcome : Except ParseError Expr}
    (h : Expr.readFrom limit [] (tokens.drop i) = (outcome, tokens.drop j)) (hij : i ≤ j)
    (hj : j ≤ tokens.length) : parse limit ⟨tokens, i⟩ = (outcome, ⟨tokens, j⟩) := by
  simp only [parse, h, List.length_drop, Prod.mk.injEq, mk.injEq, true_and]
  omega

theorem parse_of_length_le {limit : Nat} {tokens : List Token} {i : Nat} (h : tokens.length ≤ i) :
    parse limit ⟨tokens, i⟩ = (.error .endOfInput, ⟨tokens, i⟩) := by
  simp [parse, List.drop_eq_nil_of_le h, Expr.readFrom]

section
variable {limit : Nat} {tokens : List Token} {i : Nat} {t : Token} (ht : tokens[i]? = some t)

include ht

theorem parse_of_closing (closing : t.kind = .closing) :
    parse limit ⟨tokens, i⟩ = (.error .unexpectedClosing, ⟨tokens, i⟩) := by
  obtain ⟨hi, -⟩ := List.getElem?_eq_some_iff.1 ht
  have cut := drop_eq_extract_append_cons (Nat.le_refl i) ht
  refine parse_of_readFrom ?_ (Nat.le_refl i) (Nat.le_of_lt hi)
  rw [cut]
  simp [List.extract_eq_take_drop, Expr.readFrom, closing]

variable (notClosing : t.kind ≠ .closing)
  (enough : (parse limit ⟨tokens, i⟩).1 ≠ .error .nestedTooDeeply)

include notClosing enough

theorem parse_of_closesAt {j : Nat} (closes : ClosesAt tokens i j)
    (known : ∀ u ∈ tokens.extract i j, u.kind.isForeign = false) :
    ∃ e, parse limit ⟨tokens, i⟩ = (.ok e, ⟨tokens, j⟩) := by
  have hj := closes.le_length ht
  have hij : i < j := closes.1.1
  obtain ⟨k, rfl⟩ : ∃ k, j = k + 1 := Nat.exists_eq_add_one_of_ne_zero (by omega)
  have last : tokens[k]? = some tokens[k] := List.getElem?_eq_getElem hj
  have cut := drop_eq_extract_append_cons (Nat.le_of_lt_succ hij) last
  have used : tokens.extract i (k + 1) = tokens.extract i k ++ [tokens[k]] := by
    have whole := drop_eq_extract_append tokens (Nat.le_of_lt hij)
    rw [cut, List.append_cons] at whole
    exact (List.append_cancel_right whole).symm
  rw [used] at known
  have before : tokens.extract i k = [] ∧ tokens[k].kind ≠ .closing ∨ Begins (tokens.extract i k) := by
    rcases Nat.lt_or_eq_of_le (Nat.le_of_lt_succ hij) with hik | rfl
    · right
      refine begins_extract ht notClosing hik (fun u hu => known u (by simp [hu])) ?_
      intro j hj
      exact closes.2 hj.1
    · left
      rw [last, Option.some.injEq] at ht
      exact ⟨by simp [List.extract_eq_take_drop], ht ▸ notClosing⟩
  have balanced : balance (tokens.extract i k ++ [tokens[k]]) = 0 := used ▸ closes.1.2
  have read := Expr.readFrom_of_balanced limit before (known _ (by simp)) balanced (tokens.drop (k + 1))
  rw [← cut] at read
  obtain ⟨e, read⟩ := read.resolve_left enough
  exact ⟨e, parse_of_readFrom read (Nat.le_of_lt hij) hj⟩

theorem parse_of_foreign {k : Nat} {u : Token} (hik : i ≤ k) (hu : tokens[k]? = some u)
    (foreign : u.kind.isForeign) (known : ∀ v ∈ tokens.extract i k, v.kind.isForeign = false)
    (unfinished : ∀ j, ClosesAt tokens i j → k < j) :
    parse limit ⟨tokens, i⟩ = (.error (.unknownToken u), ⟨tokens, k⟩) := by
  obtain ⟨hk, rfl⟩ := List.getElem?_eq_some_iff.1 hu
  have before : tokens.extract i k = [] ∨ Begins (tokens.extract i k) := by
    rcases Nat.lt_or_eq_of_le hik with lt | rfl
    · exact .inr (begins_extract ht notClosing lt known unfinished)
    · exact .inl (by simp [List.extract_eq_take_drop])
  have read := Expr.readFrom_of_foreign limit before foreign (tokens.drop (k + 1))
  rw [← drop_eq_extract_append_cons hik hu, ← List.drop_eq_getElem_cons hk] at read
  exact parse_of_readFrom (read.resolve_left enough) hik (Nat.le_of_lt hk)

theorem parse_of_unfinished (known : ∀ u ∈ tokens.drop i, u.kind.isForeign = false)
    (unfinished : ∀ j, ¬ ClosesAt tokens i j) :
    parse limit ⟨tokens, i⟩ = (.error .unclosed, ⟨tokens, tokens.length⟩) := by
  obtain ⟨hi, -⟩ := List.getElem?_eq_some_iff.1 ht
  have begins : Begins (tokens.drop i) := by
    rw [← extract_of_length_le (Nat.le_refl _)] at known ⊢
    exact begins_extract ht notClosing hi known fun j hj => absurd hj (unfinished j)
  have read := Expr.readFrom_of_unfinished limit begins
  rw [← List.drop_length (l := tokens)] at read
  exact parse_of_readFrom (read.resolve_left enough) (Nat.le_of_lt hi) (Nat.le_refl _)

end

/-- One of the three ways applies. -/
theorem cause_of_parse {limit : Nat} {tokens : List Token} {i : Nat} {cause : ParseError}
    (failed : (parse limit ⟨tokens, i⟩).1 = .error cause) :
    cause = .endOfInput ∧ tokens.length ≤ i ∨
    cause = .unexpectedClosing ∧ (∃ t, tokens[i]? = some t ∧ t.kind = .closing) ∨
    (∃ u ∈ tokens.drop i, u.kind.isForeign ∧ cause = .unknownToken u) ∨
    cause = .unclosed ∧ (∀ j, ¬ ClosesAt tokens i j) ∨
    cause = .nestedTooDeeply := by
  by_cases beyond : tokens.length ≤ i
  · rw [parse_of_length_le beyond, Except.error.injEq] at failed
    exact .inl ⟨failed.symm, beyond⟩
  have ht : tokens[i]? = some tokens[i] := List.getElem?_eq_getElem (Nat.lt_of_not_le beyond)
  by_cases closing : tokens[i].kind = .closing
  · rw [parse_of_closing ht closing, Except.error.injEq] at failed
    exact .inr (.inl ⟨failed.symm, _, ht, closing⟩)
  by_cases deep : (parse limit ⟨tokens, i⟩).1 = .error .nestedTooDeeply
  · rw [deep, Except.error.injEq] at failed
    exact .inr (.inr (.inr (.inr failed.symm)))
  have notRead {j : Nat} (closes : ClosesAt tokens i j)
      (known : ∀ u ∈ tokens.extract i j, u.kind.isForeign = false) : False := by
    obtain ⟨e, read⟩ := parse_of_closesAt ht closing deep closes known
    rw [read] at failed
    cases failed
  by_cases known : ∀ u ∈ tokens.drop i, u.kind.isForeign = false
  · have unfinished : ∀ j, ¬ ClosesAt tokens i j := fun j closes =>
      notRead closes fun u hu => known u (List.mem_of_mem_take hu)
    rw [parse_of_unfinished ht closing deep known unfinished, Except.error.injEq] at failed
    exact .inr (.inr (.inr (.inl ⟨failed.symm, unfinished⟩)))
  · simp only [not_forall, Bool.not_eq_false] at known
    obtain ⟨v, hv, foreign⟩ := known
    obtain ⟨k, u, hik, hu, foreign, known⟩ := exists_first_foreign hv foreign
    have unfinished : ∀ j, ClosesAt tokens i j → k < j := by
      intro j closes
      by_contra before
      refine notRead closes fun w hw => known w ?_
      exact (List.take_prefix_take_left (by omega)).subset hw
    rw [parse_of_foreign ht closing deep hik hu foreign known unfinished, Except.error.injEq] at failed
    have ahead : u ∈ tokens.drop i := by
      rw [drop_eq_extract_append_cons hik hu]
      simp
    exact .inr (.inr (.inl ⟨u, ahead, foreign, failed.symm⟩))

theorem parse_of_balance_le {limit : Nat} {tokens : List Token} {i : Nat}
    (bound : ∀ k, balance (tokens.extract i k) ≤ limit) :
    (parse limit ⟨tokens, i⟩).1 ≠ .error .nestedTooDeeply := by
  apply Expr.readFrom_of_balance_le
  intro p hp
  rw [← extract_of_length_le (Nat.le_refl _)] at hp
  rw [(eq_extract_of_append hp).1, List.length_nil, Int.natCast_zero, Int.zero_add]
  exact bound _

/-- **Where reading stops.**  Reading fails where no token is left and at a closing parenthesis, and moves
no further.  Anywhere else, let `j` be the first place behind which as many parentheses have closed as
opened.  If only kinds of the lexer stand before `j`, reading succeeds and stops at `j`; the first token
of another kind, if it stands before `j` or there is no `j`, stops it earlier; and without either reading
comes to the end of the tokens and finds a list unclosed.  It fails in no other way, except that more lists
may be open than the limit allows. -/
theorem parse_stops (limit : Nat) (tokens : List Token) (i : Nat) :
    (tokens.length ≤ i → parse limit ⟨tokens, i⟩ = (.error .endOfInput, ⟨tokens, i⟩)) ∧
    (∀ t, tokens[i]? = some t → t.kind = .closing →
      parse limit ⟨tokens, i⟩ = (.error .unexpectedClosing, ⟨tokens, i⟩)) ∧
    (∀ t, tokens[i]? = some t → t.kind ≠ .closing →
      (parse limit ⟨tokens, i⟩).1 ≠ .error .nestedTooDeeply →
        (∀ j, ClosesAt tokens i j → (∀ u ∈ tokens.extract i j, u.kind.isForeign = false) →
          ∃ e, parse limit ⟨tokens, i⟩ = (.ok e, ⟨tokens, j⟩)) ∧
        (∀ k u, i ≤ k → tokens[k]? = some u → u.kind.isForeign →
          (∀ v ∈ tokens.extract i k, v.kind.isForeign = false) →
          (∀ j, ClosesAt tokens i j → k < j) →
            parse limit ⟨tokens, i⟩ = (.error (.unknownToken u), ⟨tokens, k⟩)) ∧
        ((∀ u ∈ tokens.drop i, u.kind.isForeign = false) → (∀ j, ¬ ClosesAt tokens i j) →
          parse limit ⟨tokens, i⟩ = (.error .unclosed, ⟨tokens, tokens.length⟩))) ∧
    (∀ cause, (parse limit ⟨tokens, i⟩).1 = .error cause →
      cause = .endOfInput ∧ tokens.length ≤ i ∨
      cause = .unexpectedClosing ∧ (∃ t, tokens[i]? = some t ∧ t.kind = .closing) ∨
      (∃ u ∈ tokens.drop i, u.kind.isForeign ∧ cause = .unknownToken u) ∨
      cause = .unclosed ∧ (∀ j, ¬ ClosesAt tokens i j) ∨
      cause = .nestedTooDeeply) ∧
    ((∀ k, balance (tokens.extract i k) ≤ limit) →
      (parse limit ⟨tokens, i⟩).1 ≠ .error .nestedTooDeeply) ∧
    (ParseError.endOfInput.message = "EOF" ∧
      ParseError.unexpectedClosing.message = "Unexpected ) encountered." ∧
      (∀ u, (ParseError.unknownToken u).message = "Unknown token: " ++ u.listing) ∧
      ParseError.unclosed.message = "Unclosed delimiter") := by
  refine ⟨parse_of_length_le, fun t ht closing => parse_of_closing ht closing, ?_, ?_, ?_,
    rfl, rfl, fun _ => rfl, rfl⟩
  · intro t ht notClosing enough
    refine ⟨?_, ?_, ?_⟩
    · intro j closes known
      exact parse_of_closesAt ht notClosing enough closes known
    · intro k u hik hu foreign known unfinished
      exact parse_of_foreign ht notClosing enough hik hu foreign known unfinished
    · intro known unfinished
      exact parse_of_unfinished ht notClosing enough known unfinished
  · intro cause failed
    exact cause_of_parse failed
  · exact parse_of_balance_le

/-- In `(()` before a foreign token the inner list is read, and the outer one up to that token; without the
token the outer list is unclosed. -/
theorem parse_stops_of_nested :
    parse 2 ⟨[.opening, .opening, .closing, ⟨.foreign "comment", "c"⟩], 5⟩ =
      (.error .endOfInput, ⟨[.opening, .opening, .closing, ⟨.foreign "comment", "c"⟩], 5⟩) ∧
    parse 2 ⟨[.opening, .opening, .closing, ⟨.foreign "comment", "c"⟩], 2⟩ =
      (.error .unexpectedClosing, ⟨[.opening, .opening, .closing, ⟨.foreign "comment", "c"⟩], 2⟩) ∧
    (∃ e, parse 2 ⟨[.opening, .opening, .closing, ⟨.foreign "comment", "c"⟩], 1⟩ =
      (.ok e, ⟨[.opening, .opening, .closing, ⟨.foreign "comment", "c"⟩], 3⟩)) ∧
    parse 2 ⟨[.opening, .opening, .closing, ⟨.foreign "comment", "c"⟩], 0⟩ =
      (.error (.unknownToken ⟨.foreign "comment", "c"⟩),
        ⟨[.opening, .opening, .closing, ⟨.foreign "comment", "c"⟩], 3⟩) ∧
    parse 2 ⟨[.opening, .opening, .closing], 0⟩ =
      (.error .unclosed, ⟨[.opening, .opening, .closing], 3⟩) := by
  have enough (tokens : List Token) (i : Nat)
      (h : ∀ k ≤ tokens.length, balance (tokens.extract i k) ≤ 2) :
      (parse 2 ⟨tokens, i⟩).1 ≠ .error .nestedTooDeeply := by
    refine (parse_stops 2 tokens i).2.2.2.2.1 fun k => ?_
    rcases Nat.le_total k tokens.length with hk | hk
    · exact h k hk
    · rw [extract_of_length_le hk, ← extract_of_length_le (Nat.le_refl _)]
      exact h _ (Nat.le_refl _)
  refine ⟨(parse_stops 2 _ 5).1 (by decide), (parse_stops 2 _ 2).2.1 .closing rfl rfl, ?_, ?_, ?_⟩
  · have closes : ClosesAt [.opening, .opening, .closing, ⟨.foreign "comment", "c"⟩] 1 3 := by
      refine ⟨⟨by decide, by decide⟩, fun j hj => ?_⟩
      by_contra before
      have none : ∀ j < 3, ¬ (1 < j ∧ balance (List.extract
          [.opening, .opening, .closing, ⟨.foreign "comment", "c"⟩] 1 j) = 0) := by decide
      exact none j (Nat.lt_of_not_le before) hj
    exact ((parse_stops 2 _ 1).2.2.1 .opening rfl (by decide) (enough _ 1 (by decide))).1 3 closes
      (by decide)
  · refine ((parse_stops 2 _ 0).2.2.1 .opening rfl (by decide) (enough _ 0 (by decide))).2.1 3 _
      (by decide) rfl rfl (by decide) fun j closes => ?_
    by_contra before
    have none : ∀ j < 4, ¬ (0 < j ∧ balance (List.extract
        [.opening, .opening, .closing, ⟨.foreign "comment", "c"⟩] 0 j) = 0) := by decide
    exact none j (Nat.lt_succ_of_le (Nat.le_of_not_lt before)) closes.1
  · refine ((parse_stops 2 _ 0).2.2.1 .opening rfl (by decide) (enough _ 0 (by decide))).2.2
      (by decide) fun j closes => ?_
    have none : ∀ j < 4, ¬ (0 < j ∧ balance (List.extract [.opening, .opening, .closing] 0 j) = 0) := by
      decide
    exact none j (Nat.lt_succ_of_le (closes.le_length rfl)) closes.1

end Cursor
end DynLisp
