import DynLisp.Expr.Parser

/-! # The grammar of expressions

A token sequence spells an expression if it is one literal that reads as it, or an opening
parenthesis, spellings of its items in order, and a closing parenthesis (`Spells`).  Reading accepts
exactly the spellings:

* `readFrom_spelling`: where reading meets a spelling, it goes on after it with the expression done,
  whatever lists are open and whatever tokens follow.
* `exists_spelling_of_readFrom`: reading that comes to an end has used up a spelling.  The induction
  is on the tokens ahead; its invariant `Opened` says how the tokens behind spell the lists that are
  still open.

Both count the lists inside one another, so that the limit of reading is met exactly. -/

namespace DynLisp

/-- No text is split into tokens of this kind. -/
def TokenKind.isForeign : TokenKind → Bool
  | foreign _ => true
  | _ => false

theorem Token.drop_eq_extract_append (tokens : List Token) {i k : Nat} (h : i ≤ k) :
    tokens.drop i = tokens.extract i k ++ tokens.drop k := by
  have cut := List.take_append_drop (k - i) (tokens.drop i)
  rw [List.drop_drop, Nat.add_sub_cancel' h] at cut
  exact cut.symm

namespace Expr

mutual

/-- The tokens spell the expression. -/
inductive Spells : Expr → List Token → Prop
  | literal {t : Token} : t.kind = .literal → Spells (ofLiteral t.text) [t]
  | list {items : List Expr} {ts : List Token} {first last : Token} :
      first.kind = .opening → SpellsItems items ts → last.kind = .closing →
        Spells (list items) (first :: (ts ++ [last]))

/-- The tokens spell the expressions, one after the other. -/
inductive SpellsItems : List Expr → List Token → Prop
  | nil : SpellsItems [] []
  | cons {e : Expr} {es : List Expr} {ts us : List Token} :
      Spells e ts → SpellsItems es us → SpellsItems (e :: es) (ts ++ us)

end

theorem SpellsItems.append {es fs : List Expr} {ts us : List Token} (h : SpellsItems es ts)
    (k : SpellsItems fs us) : SpellsItems (es ++ fs) (ts ++ us) := by
  induction es generalizing ts with
  | nil =>
      cases h
      exact k
  | cons e es ih =>
      cases h with
      | cons first others =>
          rw [List.cons_append, List.append_assoc]
          exact .cons first (ih others)

theorem SpellsItems.singleton {e : Expr} {ts : List Token} (h : Spells e ts) :
    SpellsItems [e] ts := by
  have := SpellsItems.cons h .nil
  rwa [List.append_nil] at this

theorem Spells.length_pos {e : Expr} {ts : List Token} (h : Spells e ts) : 0 < ts.length := by
  cases h <;> simp

theorem nesting_ofLiteral (text : String) : (ofLiteral text).nesting = 0 := by
  unfold ofLiteral
  split <;> simp

theorem nestingOfItems_append (es fs : List Expr) :
    nestingOfItems (es ++ fs) = max (nestingOfItems es) (nestingOfItems fs) := by
  induction es with
  | nil => simp [nestingOfItems]
  | cons e es ih => simp [nestingOfItems, ih, Nat.max_assoc]

/-! ### Spellings are read -/

/-- Reading on after the expression `e`, which is an item of the innermost open list or the whole. -/
def continueWith (limit : Nat) (e : Expr) :
    List (List Expr) → List Token → Except ParseError Expr × List Token
  | [], rest => (.ok e, rest)
  | items :: outer, rest => readFrom limit ((e :: items) :: outer) rest

theorem readFrom_literal {limit : Nat} {t : Token} (ht : t.kind = .literal)
    (opened : List (List Expr)) (rest : List Token) :
    readFrom limit opened (t :: rest) = continueWith limit (ofLiteral t.text) opened rest := by
  cases opened <;> simp [readFrom, ht, continueWith]

theorem readFrom_opening {limit : Nat} {t : Token} (ht : t.kind = .opening)
    {opened : List (List Expr)} (hl : opened.length < limit) (rest : List Token) :
    readFrom limit opened (t :: rest) = readFrom limit ([] :: opened) rest := by
  cases opened with
  | nil =>
      simp only [List.length_nil] at hl
      simp [readFrom, ht, hl]
  | cons items outer =>
      simp only [List.length_cons] at hl
      simp [readFrom, ht, hl]

theorem readFrom_closing {limit : Nat} {t : Token} (ht : t.kind = .closing) (items : List Expr)
    (outer : List (List Expr)) (rest : List Token) :
    readFrom limit (items :: outer) (t :: rest) =
      continueWith limit (list items.reverse) outer rest := by
  cases outer <;> simp [readFrom, ht, continueWith]

theorem readFrom_foreign {limit : Nat} {t : Token} (ht : t.kind.isForeign)
    (opened : List (List Expr)) (rest : List Token) :
    readFrom limit opened (t :: rest) = (.error (.unknownToken t), t :: rest) := by
  cases hk : t.kind with
  | foreign name => cases opened <;> simp [readFrom, hk]
  | _ => simp [TokenKind.isForeign, hk] at ht

theorem readFrom_opening_full {limit : Nat} {t : Token} (ht : t.kind = .opening)
    {opened : List (List Expr)} (hl : limit ≤ opened.length) (rest : List Token) :
    readFrom limit opened (t :: rest) = (.error .nestedTooDeeply, t :: rest) := by
  cases opened <;> simp [readFrom, ht] at hl ⊢ <;> omega

mutual

/-- A spelling is read as its expression. -/
theorem readFrom_spelling {limit : Nat} {e : Expr} {ts : List Token} (h : Spells e ts)
    (opened : List (List Expr)) (rest : List Token) (hl : opened.length + e.nesting ≤ limit) :
    readFrom limit opened (ts ++ rest) = continueWith limit e opened rest := by
  cases h with
  | literal ht => exact readFrom_literal ht opened rest
  | @list items ts first last hf hi hc =>
      simp only [nesting_list] at hl
      rw [List.cons_append, List.append_assoc, readFrom_opening hf (by omega),
        readFrom_spellings hi [] opened _ (by omega), List.append_nil, List.singleton_append,
        readFrom_closing hc, List.reverse_reverse]

/-- Spellings one after the other are read as items of the innermost open list. -/
theorem readFrom_spellings {limit : Nat} {es : List Expr} {ts : List Token} (h : SpellsItems es ts)
    (items : List Expr) (outer : List (List Expr)) (rest : List Token)
    (hl : outer.length + nestingOfItems es + 1 ≤ limit) :
    readFrom limit (items :: outer) (ts ++ rest) =
      readFrom limit ((es.reverse ++ items) :: outer) rest := by
  cases h with
  | nil => rfl
  | @cons e es ts us first others =>
      simp only [nestingOfItems] at hl
      have he : (items :: outer).length + e.nesting ≤ limit := by
        simp only [List.length_cons]
        omega
      rw [List.append_assoc, readFrom_spelling first _ _ he]
      show readFrom limit ((e :: items) :: outer) (us ++ rest) = _
      rw [readFrom_spellings others _ _ _ (by omega), List.reverse_cons, List.append_assoc,
        List.singleton_append]

end

/-! ### What is read is a spelling -/

/-- The tokens behind spell the open lists so far: for each list, from the outermost one on, an
opening parenthesis and its items, and the items may still be of the depth that the limit leaves. -/
inductive Opened (limit : Nat) : List (List Expr) → List Token → Prop
  | nil : Opened limit [] []
  | cons {items : List Expr} {outer : List (List Expr)} {behind ts : List Token} {first : Token} :
      Opened limit outer behind → first.kind = .opening → SpellsItems items.reverse ts →
        outer.length + nestingOfItems items + 1 ≤ limit →
          Opened limit (items :: outer) (behind ++ first :: ts)

theorem nestingOfItems_reverse (es : List Expr) :
    nestingOfItems es.reverse = nestingOfItems es := by
  induction es with
  | nil => rfl
  | cons e es ih => simp [nestingOfItems_append, nestingOfItems, ih, Nat.max_comm]

/-- One more item spelled, when lists are open. -/
theorem Opened.push {limit : Nat} {items : List Expr} {outer : List (List Expr)}
    {behind ts : List Token} {e : Expr} (h : Opened limit (items :: outer) behind)
    (he : Spells e ts) (hl : (items :: outer).length + e.nesting ≤ limit) :
    Opened limit ((e :: items) :: outer) (behind ++ ts) := by
  cases h with
  | @cons _ _ before us first opened hf hi hn =>
      have spelled : SpellsItems (e :: items).reverse (us ++ ts) := by
        rw [List.reverse_cons]
        exact hi.append (.singleton he)
      have bound : outer.length + nestingOfItems (e :: items) + 1 ≤ limit := by
        simp only [nestingOfItems, List.length_cons] at hl ⊢
        omega
      have := Opened.cons opened hf spelled bound
      rwa [List.append_assoc, List.cons_append]

/-- The innermost open list closed. -/
theorem Opened.close {limit : Nat} {items : List Expr} {outer : List (List Expr)}
    {behind : List Token} {last : Token} (h : Opened limit (items :: outer) behind)
    (hc : last.kind = .closing) :
    ∃ before ts, Opened limit outer before ∧ behind ++ [last] = before ++ ts ∧
      Spells (list items.reverse) ts ∧ outer.length + (list items.reverse).nesting ≤ limit := by
  cases h with
  | @cons _ _ before us first opened hf hi hn =>
      refine ⟨before, first :: (us ++ [last]), opened, by simp, .list hf hi hc, ?_⟩
      rw [nesting_list, nestingOfItems_reverse]
      omega

/-- Reading that comes to an end has used up a spelling. -/
theorem exists_spelling_of_readFrom {limit : Nat} {e : Expr} {rest : List Token} :
    ∀ {ahead : List Token} {opened : List (List Expr)} {behind : List Token},
      Opened limit opened behind → readFrom limit opened ahead = (.ok e, rest) →
        ∃ used, ahead = used ++ rest ∧ Spells e (behind ++ used) ∧ e.nesting ≤ limit := by
  intro ahead
  induction ahead with
  | nil =>
      intro opened behind _ h
      simp [readFrom] at h
  | cons t ahead ih =>
      -- an expression `f` done, whose last token is `t`: reading ends or goes on with one more item
      have done {opened : List (List Expr)} {behind ts : List Token} {f : Expr}
          (ho : Opened limit opened behind) (hf : Spells f ts)
          (hl : opened.length + f.nesting ≤ limit)
          (h : continueWith limit f opened ahead = (.ok e, rest)) :
          ∃ used, ahead = used ++ rest ∧ Spells e (behind ++ ts ++ used) ∧ e.nesting ≤ limit := by
        cases opened with
        | nil =>
            simp only [continueWith, Prod.mk.injEq, Except.ok.injEq] at h
            obtain ⟨rfl, rfl⟩ := h
            cases ho
            exact ⟨[], rfl, by simpa using hf, by simpa using hl⟩
        | cons items outer => exact ih (ho.push hf hl) h
      intro opened behind ho h
      cases hk : t.kind with
      | literal =>
          rw [readFrom_literal hk] at h
          have bound : opened.length + (ofLiteral t.text).nesting ≤ limit := by
            rw [nesting_ofLiteral]
            cases ho with
            | nil => simp
            | cons _ _ _ hn =>
                simp only [List.length_cons]
                omega
          obtain ⟨used, rfl, spelled, nested⟩ := done ho (.literal hk) bound h
          exact ⟨t :: used, rfl, by simpa using spelled, nested⟩
      | opening =>
          by_cases hl : opened.length < limit
          · rw [readFrom_opening hk hl] at h
            have bound : opened.length + nestingOfItems [] + 1 ≤ limit := by
              simp only [nestingOfItems]
              omega
            have noItems : SpellsItems ([] : List Expr).reverse [] := .nil
            obtain ⟨used, rfl, spelled, nested⟩ := ih (.cons ho hk noItems bound) h
            exact ⟨t :: used, rfl, by simpa using spelled, nested⟩
          · rw [readFrom_opening_full hk (Nat.le_of_not_lt hl)] at h
            cases h
      | closing =>
          cases opened with
          | nil => simp [readFrom, hk] at h
          | cons items outer =>
              rw [readFrom_closing hk] at h
              obtain ⟨before, ts, outerOpened, behindEq, spelledList, bound⟩ := ho.close hk
              obtain ⟨used, rfl, spelled, nested⟩ := done outerOpened spelledList bound h
              refine ⟨t :: used, rfl, ?_, nested⟩
              rw [← behindEq] at spelled
              simpa using spelled
      | foreign name =>
          rw [readFrom_foreign (by simp [hk, TokenKind.isForeign])] at h
          cases h

/-! ### The grammar -/

theorem readFrom_eq_ok_iff {limit : Nat} {tokens rest : List Token} {e : Expr} :
    readFrom limit [] tokens = (.ok e, rest) ↔
      ∃ used, tokens = used ++ rest ∧ Spells e used ∧ e.nesting ≤ limit := by
  constructor
  · intro h
    simpa using exists_spelling_of_readFrom .nil h
  · rintro ⟨used, rfl, spelled, nested⟩
    rw [readFrom_spelling spelled [] rest (by simpa using nested)]
    rfl

theorem parse_cursor_eq_ok_iff {limit : Nat} {c c' : Cursor} {e : Expr} :
    c.parse limit = (.ok e, c') ↔
      ∃ used rest, c.tokens.drop c.position = used ++ rest ∧ Spells e used ∧ e.nesting ≤ limit ∧
        c' = ⟨c.tokens, c.position + used.length⟩ := by
  have parse_of {outcome : Except ParseError Expr} {rest : List Token}
      (h : readFrom limit [] (c.tokens.drop c.position) = (outcome, rest)) :
      c.parse limit = (outcome, ⟨c.tokens,
        c.position + ((c.tokens.drop c.position).length - rest.length)⟩) := by
    simp only [Cursor.parse, h]
  constructor
  · intro h
    cases hr : readFrom limit [] (c.tokens.drop c.position) with
    | mk outcome rest =>
        rw [parse_of hr, Prod.mk.injEq] at h
        obtain ⟨rfl, rfl⟩ := h
        obtain ⟨used, cut, spelled, nested⟩ := readFrom_eq_ok_iff.1 hr
        exact ⟨used, rest, cut, spelled, nested, by simp [cut]⟩
  · rintro ⟨used, rest, cut, spelled, nested, rfl⟩
    rw [parse_of (readFrom_eq_ok_iff.2 ⟨used, cut, spelled, nested⟩), cut]
    simp

/-- Reading at an index gives `e` and stops at `j` exactly if the tokens between spell `e`. -/
theorem parseAt_eq_ok_iff {limit : Nat} {tokens : List Token} {i j : Nat} {e : Expr} :
    parseAt limit tokens i = .ok (j, e) ↔
      i < j ∧ j ≤ tokens.length ∧ Spells e (tokens.extract i j) ∧ e.nesting ≤ limit := by
  have unfolded : parseAt limit tokens i = .ok (j, e) ↔
      ∃ c, Cursor.parse limit ⟨tokens, i⟩ = (.ok e, c) ∧ c.position = j := by
    unfold parseAt
    cases Cursor.parse limit ⟨tokens, i⟩ with
    | mk outcome cursor =>
        cases outcome with
        | error _ => simp [Except.map]
        | ok f =>
            simp only [Except.map, Except.ok.injEq, Prod.mk.injEq]
            constructor
            · rintro ⟨hj, rfl⟩
              exact ⟨cursor, ⟨rfl, rfl⟩, hj⟩
            · rintro ⟨c, ⟨rfl, rfl⟩, hj⟩
              exact ⟨hj, rfl⟩
  rw [unfolded]
  constructor
  · rintro ⟨c, h, rfl⟩
    obtain ⟨used, rest, cut, spelled, nested, rfl⟩ := parse_cursor_eq_ok_iff.1 h
    have lengths := congrArg List.length cut
    have positive := spelled.length_pos
    simp only [List.length_drop, List.length_append] at lengths
    refine ⟨by simpa using positive, by simp only; omega, ?_, nested⟩
    simp only at cut
    simpa [cut] using spelled
  · rintro ⟨hij, hj, spelled, nested⟩
    have cut := Token.drop_eq_extract_append tokens (Nat.le_of_lt hij)
    refine ⟨_, parse_cursor_eq_ok_iff.2 ⟨_, tokens.drop j, cut, spelled, nested, rfl⟩, ?_⟩
    simp only [List.extract_eq_take_drop, List.length_take, List.length_drop]
    omega

/-! ### One expression after another -/

end Expr

/-- Reads expressions one after the other, as many as asked for. -/
def Cursor.parseTimes (limit : Nat) : Nat → Cursor → Except ParseError (List Expr) × Cursor
  | 0, c => (.ok [], c)
  | n + 1, c =>
    match c.parse limit with
    | (.error e, c') => (.error e, c')
    | (.ok e, c') =>
      let (outcome, c'') := parseTimes limit n c'
      (outcome.map (e :: ·), c'')

namespace Expr

theorem parseTimes_spellings {limit : Nat} : ∀ {es : List Expr} {ts : List Token} {c : Cursor}
    {rest : List Token}, SpellsItems es ts → nestingOfItems es ≤ limit →
      c.tokens.drop c.position = ts ++ rest →
        c.parseTimes limit es.length = (.ok es, ⟨c.tokens, c.position + ts.length⟩)
  | [], _, c, _, h, _, _ => by
      cases h
      rfl
  | e :: es, _, c, rest, h, hl, cut => by
      cases h with
      | @cons _ _ ts us first others =>
          simp only [nestingOfItems] at hl
          rw [List.append_assoc] at cut
          have one : c.parse limit = (.ok e, ⟨c.tokens, c.position + ts.length⟩) :=
            parse_cursor_eq_ok_iff.2 ⟨ts, us ++ rest, cut, first, by omega, rfl⟩
          have cut' : c.tokens.drop (c.position + ts.length) = us ++ rest := by
            rw [← List.drop_drop, cut, List.drop_left]
          have bound : nestingOfItems es ≤ limit := by omega
          have more := parseTimes_spellings (c := ⟨c.tokens, c.position + ts.length⟩) others bound cut'
          simp only [List.length_cons, Cursor.parseTimes, one, more, Except.map, List.length_append,
            Nat.add_assoc]

/-- **The grammar of expressions.**  Reading at an index gives `e` and stops at `j` exactly if the
tokens between spell `e`; so there is one such place and expression at most, no other token matters,
and spellings one after the other are read one after the other. -/
theorem parseAt_grammar :
    (∀ (limit : Nat) (tokens : List Token) (i j : Nat) (e : Expr),
      parseAt limit tokens i = .ok (j, e) ↔
        i < j ∧ j ≤ tokens.length ∧ Spells e (tokens.extract i j) ∧ e.nesting ≤ limit) ∧
    (∀ (tokens : List Token) (i j k : Nat) (e f : Expr),
      i < j → j ≤ tokens.length → Spells e (tokens.extract i j) →
      i < k → k ≤ tokens.length → Spells f (tokens.extract i k) → j = k ∧ e = f) ∧
    (∀ (limit : Nat) (tokens : List Token) (i j : Nat) (e : Expr) (before after : List Token),
      parseAt limit tokens i = .ok (j, e) →
        parseAt limit (before ++ tokens.extract i j ++ after) before.length =
          .ok (before.length + (j - i), e)) ∧
    (∀ (limit : Nat) (es : List Expr) (ts : List Token),
      SpellsItems es ts → nestingOfItems es ≤ limit →
        Cursor.parseTimes limit es.length ⟨ts, 0⟩ = (.ok es, ⟨ts, ts.length⟩) ∧
          Cursor.atEnd ⟨ts, ts.length⟩) := by
  refine ⟨fun _ _ _ _ _ => parseAt_eq_ok_iff, ?_, ?_, ?_⟩
  · intro tokens i j k e f hij hj he hik hk hf
    -- with a limit that both respect, reading at `i` gives both
    have readE : parseAt (max e.nesting f.nesting) tokens i = .ok (j, e) :=
      parseAt_eq_ok_iff.2 ⟨hij, hj, he, Nat.le_max_left _ _⟩
    have readF : parseAt (max e.nesting f.nesting) tokens i = .ok (k, f) :=
      parseAt_eq_ok_iff.2 ⟨hik, hk, hf, Nat.le_max_right _ _⟩
    rw [readE] at readF
    simpa using readF
  · intro limit tokens i j e before after h
    obtain ⟨hij, hj, spelled, nested⟩ := parseAt_eq_ok_iff.1 h
    have length : (tokens.extract i j).length = j - i := by
      simp only [List.extract_eq_take_drop, List.length_take, List.length_drop]
      omega
    refine parseAt_eq_ok_iff.2 ⟨by omega, ?_, ?_, nested⟩
    · simp only [List.length_append, length]
      omega
    · rw [List.extract_eq_take_drop, List.append_assoc, List.drop_left, Nat.add_sub_cancel_left,
        ← length, List.take_left]
      exact spelled
  · intro limit es ts h hl
    have all : ts.drop 0 = ts ++ [] := by simp
    have := parseTimes_spellings (c := ⟨ts, 0⟩) h hl all
    exact ⟨by simpa using this, by simp [Cursor.atEnd]⟩

/-- `(f ())` is read with other tokens on both sides, and `f ()` is read as two expressions. -/
theorem parseAt_grammar_of_call :
    parseAt 2 ([.closing] ++
        [.opening, .literal "f", .opening, .closing, .closing, .literal "x"].extract 0 5 ++
          [⟨.foreign "comment", "f"⟩]) 1 = .ok (6, .list [.symbol "f", .list []]) ∧
    Cursor.parseTimes 1 2 ⟨[.literal "f", .opening, .closing], 0⟩ =
      (.ok [.symbol "f", .list []], ⟨[.literal "f", .opening, .closing], 3⟩) := by
  have f : Spells (.symbol "f") [.literal "f"] := .literal (t := .literal "f") rfl
  have empty : Spells (.list []) [.opening, .closing] := .list rfl .nil rfl
  have both : SpellsItems [.symbol "f", .list []] [.literal "f", .opening, .closing] :=
    .cons f (.singleton empty)
  exact ⟨parseAt_grammar.2.2.1 2 _ 0 5 _ [.closing] [⟨.foreign "comment", "f"⟩] rfl,
    (parseAt_grammar.2.2.2 1 _ _ both (by decide)).1⟩

end Expr
end DynLisp
