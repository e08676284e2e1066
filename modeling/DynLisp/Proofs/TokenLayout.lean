import DynLisp.Token.Lexer

/-! # The token grammar

A text is split into tokens with blanks before, between and after them.  A `Layout` is such a
splitting, `w₀ x₁ w₁ … xₙ wₙ`; it is valid if the `wᵢ` are runs of blanks, the `xᵢ` are texts of
lexemes, and two literals never touch.

* `lexFrom_text`: the text of a valid layout is split into the tokens of the layout.
* `exists_layout_of_lexFrom`: whatever is split without an error is the text of a valid layout.
* `Layout.eq_of_text_eq`: a text has at most one valid layout.

All three rest on the boundaries of runs: what follows a run of blanks is not blank, and what follows
a literal is no literal character. -/

namespace DynLisp
namespace Token

open Text

/-- The tokens that texts are split into. -/
inductive IsLexeme : Token → Prop
  | opening : IsLexeme opening
  | closing : IsLexeme closing
  | literal {text : String} : text.toList ≠ [] → (∀ c ∈ text.toList, isLiteralChar c) →
      IsLexeme (literal text)

/-- Blanks only, or nothing. -/
def IsBlankRun (w : List Char) : Prop := ∀ c ∈ w, isBlank c

instance (w : List Char) : Decidable (IsBlankRun w) :=
  decidable_of_iff (w.all isBlank) List.all_eq_true

theorem isLexeme_iff (t : Token) :
    t.IsLexeme ↔ t = opening ∨ t = closing ∨
      t.kind = .literal ∧ t.text.toList ≠ [] ∧ t.text.toList.all isLiteralChar := by
  constructor
  · rintro (_ | _ | ⟨ne, all⟩)
    · exact .inl rfl
    · exact .inr (.inl rfl)
    · exact .inr (.inr ⟨rfl, ne, List.all_eq_true.2 all⟩)
  · obtain ⟨kind, text⟩ := t
    rintro (h | h | ⟨rfl, ne, all⟩)
    · exact h ▸ .opening
    · exact h ▸ .closing
    · exact .literal ne (List.all_eq_true.1 all)

instance (t : Token) : Decidable t.IsLexeme :=
  decidable_of_iff _ (isLexeme_iff t).symm

/-- A blank or a parenthesis: where a literal cannot go on. -/
def endsLiteral (c : Char) : Bool :=
  isBlank c || c == '(' || c == ')'

theorem isBlank_opening : isBlank '(' = false := by decide

theorem isBlank_closing : isBlank ')' = false := by decide

theorem isBlank_of_isLiteralChar {c : Char} (h : isLiteralChar c) : isBlank c = false := by
  simp only [isLiteralChar, Bool.and_eq_true, Bool.not_eq_true'] at h
  exact h.1.1.2

theorem endsLiteral_of_isLiteralChar {c : Char} (h : isLiteralChar c) : endsLiteral c = false := by
  simp only [isLiteralChar, Bool.and_eq_true, Bool.not_eq_true', bne_iff_ne, ne_eq] at h
  obtain ⟨⟨⟨-, blank⟩, opening⟩, closing⟩ := h
  simp [endsLiteral, blank, opening, closing]

/-- The text of a lexeme begins with a character that is not blank. -/
theorem IsLexeme.exists_head {t : Token} (ht : t.IsLexeme) :
    ∃ c rest, t.text.toList = c :: rest ∧ isBlank c = false ∧ (t.kind ≠ .literal → endsLiteral c) := by
  cases ht with
  | opening => exact ⟨'(', [], by decide, isBlank_opening, fun _ => by decide⟩
  | closing => exact ⟨')', [], by decide, isBlank_closing, fun _ => by decide⟩
  | @literal text ne all =>
      obtain ⟨c, rest, e⟩ := List.exists_cons_of_ne_nil ne
      refine ⟨c, rest, e, isBlank_of_isLiteralChar (all c (by simp [e])), fun h => absurd rfl h⟩

/-! ### Layouts -/

/-- A text as blanks and tokens in turn. -/
inductive Layout where
  | blanks (w : List Char)
  | piece (w : List Char) (t : Token) (rest : Layout)

namespace Layout

/-- The characters of a layout. -/
def text : Layout → List Char
  | blanks w => w
  | piece w t rest => w ++ (t.text.toList ++ rest.text)

/-- The tokens of a layout. -/
def tokens : Layout → List Token
  | blanks _ => []
  | piece _ t rest => t :: rest.tokens

/-- If `t` is a literal and the next token is one too, then there are blanks between them. -/
def Apart (t : Token) : Layout → Prop
  | blanks _ => True
  | piece w u _ => t.kind = .literal → u.kind = .literal → w ≠ []

/-- Runs of blanks and lexemes in turn, two literals never touching. -/
def Valid : Layout → Prop
  | blanks w => IsBlankRun w
  | piece w t rest => IsBlankRun w ∧ t.IsLexeme ∧ Apart t rest ∧ rest.Valid

theorem apart_of_kind_ne {t : Token} (h : t.kind ≠ .literal) : ∀ l : Layout, Apart t l
  | blanks _ => trivial
  | piece _ _ _ => fun literal => absurd literal h

instance decidableApart (t : Token) : ∀ l : Layout, Decidable (Apart t l)
  | blanks _ => isTrue trivial
  | piece w u _ => inferInstanceAs (Decidable (t.kind = .literal → u.kind = .literal → w ≠ []))

instance decidableValid : ∀ l : Layout, Decidable l.Valid
  | blanks w => inferInstanceAs (Decidable (IsBlankRun w))
  | piece w t rest =>
      have := decidableValid rest
      inferInstanceAs (Decidable (IsBlankRun w ∧ t.IsLexeme ∧ Apart t rest ∧ rest.Valid))

theorem isLexeme_of_mem_tokens : ∀ {l : Layout}, l.Valid → ∀ t ∈ l.tokens, t.IsLexeme
  | blanks _, _, _, ht => by simp [tokens] at ht
  | piece w u rest, hv, t, ht => by
      rcases List.mem_cons.1 ht with rfl | ht
      · exact hv.2.1
      · exact isLexeme_of_mem_tokens hv.2.2.2 t ht

/-- Where a literal stands before a layout, the text of the layout does not continue it. -/
theorem endsLiteral_of_apart {t : Token} (ht : t.kind = .literal) : ∀ {l : Layout},
    l.Valid → Apart t l → ∀ c ∈ l.text.head?, endsLiteral c
  | blanks [], _, _, c, hc => by simp [text] at hc
  | blanks (b :: w), hv, _, c, hc => by
      simp only [text, List.head?_cons, Option.mem_some] at hc
      subst hc
      simp [endsLiteral, hv b (by simp)]
  | piece (b :: w) u rest, hv, _, c, hc => by
      simp only [text, List.cons_append, List.head?_cons, Option.mem_some] at hc
      subst hc
      simp [endsLiteral, hv.1 b (by simp)]
  | piece [] u rest, hv, ha, c, hc => by
      obtain ⟨first, others, e, -, ends⟩ := hv.2.1.exists_head
      simp only [text, e, List.nil_append, List.cons_append, List.head?_cons, Option.mem_some] at hc
      subst hc
      exact ends fun hu => ha ht hu rfl

/-! ### Uniqueness -/

/-- Two ways to cut a text where a run of the class `p` ends are the same. -/
theorem run_inj {p : Char → Bool} : ∀ {xs ys r s : List Char},
    (∀ c ∈ xs, p c) → (∀ c ∈ ys, p c) → (∀ c ∈ r.head?, p c = false) →
      (∀ c ∈ s.head?, p c = false) → xs ++ r = ys ++ s → xs = ys ∧ r = s
  | [], [], _, _, _, _, _, _, h => ⟨rfl, h⟩
  | [], y :: ys, r, s, _, hy, hr, _, h => by
      have outside : p y = false := hr y (by rw [← List.nil_append r, h]; simp)
      simp [hy y (by simp)] at outside
  | x :: xs, [], r, s, hx, _, _, hs, h => by
      have outside : p x = false := hs x (by rw [← List.nil_append s, ← h]; simp)
      simp [hx x (by simp)] at outside
  | x :: xs, y :: ys, r, s, hx, hy, hr, hs, h => by
      simp only [List.cons_append, List.cons.injEq] at h
      obtain ⟨rfl, h⟩ := h
      obtain ⟨rfl, e⟩ := run_inj (fun c hc => hx c (by simp [hc]))
        (fun c hc => hy c (by simp [hc])) hr hs h
      exact ⟨rfl, e⟩

theorem not_isBlank_head {t : Token} (ht : t.IsLexeme) (rest : List Char) :
    ∀ c ∈ (t.text.toList ++ rest).head?, isBlank c = false := by
  obtain ⟨first, others, e, blank, -⟩ := ht.exists_head
  intro c hc
  simp only [e, List.cons_append, List.head?_cons, Option.mem_some] at hc
  exact hc ▸ blank

theorem not_isLiteralChar_head {t : Token} (ht : t.kind = .literal) {l : Layout} (hv : l.Valid)
    (ha : Apart t l) : ∀ c ∈ l.text.head?, isLiteralChar c = false := by
  intro c hc
  apply Bool.eq_false_iff.2
  intro h
  have := endsLiteral_of_apart ht hv ha c hc
  simp [endsLiteral_of_isLiteralChar h] at this

/-- Two lexemes at the beginning of one text are the same, and so is what follows them. -/
theorem lexeme_inj {t u : Token} {l k : Layout} (ht : t.IsLexeme) (hu : u.IsLexeme) (hl : l.Valid)
    (hk : k.Valid) (htl : Apart t l) (huk : Apart u k)
    (h : t.text.toList ++ l.text = u.text.toList ++ k.text) : t = u ∧ l.text = k.text := by
  -- a literal begins with another character than a parenthesis, so both are of one kind
  have mixed {text : String} {p : Char} {rest rest' : List Char} (hp : endsLiteral p)
      (ne : text.toList ≠ []) (all : ∀ c ∈ text.toList, isLiteralChar c)
      (e : text.toList ++ rest = p :: rest') : False := by
    obtain ⟨c, cs, hc⟩ := List.exists_cons_of_ne_nil ne
    rw [hc, List.cons_append, List.cons.injEq] at e
    have := endsLiteral_of_isLiteralChar (all c (by simp [hc]))
    rw [e.1, hp] at this
    cases this
  cases ht with
  | opening =>
      cases hu with
      | opening => exact ⟨rfl, List.append_cancel_left h⟩
      | closing => simp [opening, closing] at h
      | literal ne all => exact (mixed (p := '(') (by decide) ne all h.symm).elim
  | closing =>
      cases hu with
      | opening => simp [opening, closing] at h
      | closing => exact ⟨rfl, List.append_cancel_left h⟩
      | literal ne all => exact (mixed (p := ')') (by decide) ne all h.symm).elim
  | literal ne all =>
      cases hu with
      | opening => exact (mixed (p := '(') (by decide) ne all h).elim
      | closing => exact (mixed (p := ')') (by decide) ne all h).elim
      | literal ne' all' =>
          obtain ⟨same, rest⟩ := run_inj all all' (not_isLiteralChar_head rfl hl htl)
            (not_isLiteralChar_head rfl hk huk) h
          exact ⟨by rw [String.toList_inj.1 same], rest⟩

/-- A text has at most one valid layout. -/
theorem eq_of_text_eq : ∀ {l k : Layout}, l.Valid → k.Valid → l.text = k.text → l = k
  | blanks _, blanks _, _, _, h => by
      simp only [text] at h
      rw [h]
  | blanks w, piece v u rest, hl, hk, h => by
      obtain ⟨c, cs, e, blank, -⟩ := hk.2.1.exists_head
      have : c ∈ w := by
        simp only [text, e] at h
        simp [h]
      simp [hl c this] at blank
  | piece w t rest, blanks v, hl, hk, h => by
      obtain ⟨c, cs, e, blank, -⟩ := hl.2.1.exists_head
      have : c ∈ v := by
        simp only [text, e] at h
        simp [← h]
      simp [hk c this] at blank
  | piece w t l, piece v u k, ⟨hw, ht, htl, hl⟩, ⟨hv, hu, huk, hk⟩, h => by
      obtain ⟨rfl, afterBlanks⟩ := run_inj hw hv (not_isBlank_head ht _) (not_isBlank_head hu _) h
      obtain ⟨rfl, afterToken⟩ := lexeme_inj ht hu hl hk htl huk afterBlanks
      rw [eq_of_text_eq hl hk afterToken]

end Layout

/-! ### Splitting the text of a layout -/

theorem flush_nil (tokens : List Token) : flush [] tokens = tokens := rfl

theorem lexFrom_blanks (tokens : List Token) (rest : List Char) : ∀ {w : List Char} (offset : Nat),
    IsBlankRun w → lexFrom offset [] tokens (w ++ rest) = lexFrom (offset + w.length) [] tokens rest
  | [], _, _ => rfl
  | b :: w, offset, hw => by
      have hb : isBlank b := hw b (by simp)
      rw [List.cons_append, lexFrom, if_pos hb, flush_nil,
        lexFrom_blanks tokens rest _ fun c hc => hw c (by simp [hc])]
      congr 1
      simp only [List.length_cons]
      omega

theorem lexFrom_cons_of_isLiteralChar {c : Char} (hc : isLiteralChar c) (offset : Nat)
    (run : List Char) (tokens : List Token) (rest : List Char) :
    lexFrom offset run tokens (c :: rest) = lexFrom (offset + 1) (c :: run) tokens rest := by
  simp only [isLiteralChar, Bool.and_eq_true, Bool.not_eq_true', bne_iff_ne, ne_eq] at hc
  obtain ⟨⟨⟨printable, blank⟩, opening⟩, closing⟩ := hc
  simp [lexFrom, printable, blank, opening, closing]

theorem lexFrom_literal (tokens : List Token) (rest : List Char) :
    ∀ {x : List Char} (offset : Nat) (run : List Char), (∀ c ∈ x, isLiteralChar c) →
      lexFrom offset run tokens (x ++ rest) =
        lexFrom (offset + x.length) (x.reverse ++ run) tokens rest
  | [], _, _, _ => rfl
  | c :: x, offset, run, hx => by
      rw [List.cons_append, lexFrom_cons_of_isLiteralChar (hx c (by simp)),
        lexFrom_literal tokens rest _ _ fun c hc => hx c (by simp [hc])]
      simp [Nat.add_assoc, Nat.add_comm 1]

/-- A run of literal characters is a token as soon as it cannot go on. -/
theorem lexFrom_flush (offset : Nat) (run : List Char) (tokens : List Token) {cs : List Char}
    (h : ∀ c ∈ cs.head?, endsLiteral c) :
    lexFrom offset run tokens cs = lexFrom offset [] (flush run tokens) cs := by
  cases cs with
  | nil => rfl
  | cons c rest =>
      have ends := h c rfl
      simp only [endsLiteral, Bool.or_eq_true, beq_iff_eq] at ends
      rcases ends with (blank | rfl) | rfl
      · simp [lexFrom, blank, flush_nil]
      · simp [lexFrom, isBlank_opening, flush_nil]
      · simp [lexFrom, isBlank_closing, flush_nil]

theorem flush_literal {text : String} (ne : text.toList ≠ []) (tokens : List Token) :
    flush text.toList.reverse tokens = literal text :: tokens := by
  simp [flush, ne]

/-- The text of a valid layout is split into the tokens of the layout. -/
theorem lexFrom_text : ∀ {l : Layout} (offset : Nat) (tokens : List Token), l.Valid →
    lexFrom offset [] tokens l.text = (tokens.reverse ++ l.tokens, none)
  | .blanks w, offset, tokens, hw => by
      have := lexFrom_blanks tokens [] offset hw
      simpa [Layout.text, Layout.tokens, lexFrom, flush_nil] using this
  | .piece w t rest, offset, tokens, ⟨hw, ht, ha, hv⟩ => by
      rw [Layout.text, lexFrom_blanks tokens _ offset hw]
      cases ht with
      | opening =>
          show lexFrom _ [] tokens ('(' :: rest.text) = _
          rw [lexFrom, isBlank_opening, if_neg Bool.false_ne_true, if_pos rfl, flush_nil,
            lexFrom_text _ _ hv]
          simp [Layout.tokens]
      | closing =>
          show lexFrom _ [] tokens (')' :: rest.text) = _
          rw [lexFrom, isBlank_closing, if_neg Bool.false_ne_true, if_neg (by decide), if_pos rfl,
            flush_nil, lexFrom_text _ _ hv]
          simp [Layout.tokens]
      | @literal text ne all =>
          show lexFrom _ [] tokens (text.toList ++ rest.text) = _
          rw [lexFrom_literal tokens _ _ [] all,
            lexFrom_flush _ _ _ (Layout.endsLiteral_of_apart rfl hv ha), List.append_nil,
            flush_literal ne, lexFrom_text _ _ hv]
          simp [Layout.tokens]

theorem flush_append (run : List Char) (first tokens : List Token) :
    flush run (first ++ tokens) = flush run first ++ tokens := by
  unfold flush
  split <;> rfl

/-- A text that is split without an error is split alike where other tokens were met before it and a
blank or a parenthesis comes after it. -/
theorem lexFrom_append {c : Char} (hc : endsLiteral c) (rest : List Char) (tokens : List Token) :
    ∀ {cs run : List Char} {offset : Nat} {first ts : List Token} (offset' : Nat),
      lexFrom offset run first cs = (ts, none) →
        lexFrom offset' run (first ++ tokens) (cs ++ c :: rest) =
          lexFrom (offset' + cs.length) [] (ts.reverse ++ tokens) (c :: rest)
  | [], run, offset, first, ts, offset', h => by
      simp only [lexFrom, Prod.mk.injEq, and_true] at h
      have next : ∀ d ∈ (c :: rest).head?, endsLiteral d := by simpa using hc
      rw [List.nil_append, lexFrom_flush _ _ _ next, flush_append, ← h, List.reverse_reverse]
      rfl
  | a :: cs, run, offset, first, ts, offset', h => by
      rw [lexFrom] at h
      have length : offset' + (a :: cs).length = offset' + 1 + cs.length := by
        simp only [List.length_cons]
        omega
      rw [List.cons_append, lexFrom, length, flush_append]
      split at h
      · rename_i blank
        rw [if_pos blank]
        exact lexFrom_append hc rest tokens _ h
      rename_i notBlank
      rw [if_neg notBlank]
      split at h
      · rename_i isOpening
        rw [if_pos isOpening]
        exact lexFrom_append hc rest tokens _ h
      rename_i notOpening
      rw [if_neg notOpening]
      split at h
      · rename_i isClosing
        rw [if_pos isClosing]
        exact lexFrom_append hc rest tokens _ h
      rename_i notClosing
      rw [if_neg notClosing]
      split at h
      · rename_i printable
        rw [if_pos printable]
        exact lexFrom_append hc rest tokens _ h
      · cases h

/-! ### The layout of a text that is split -/

namespace Layout

/-- More blanks in front. -/
def indent (v : List Char) : Layout → Layout
  | blanks w => blanks (v ++ w)
  | piece w t rest => piece (v ++ w) t rest

@[simp] theorem text_indent (v : List Char) (l : Layout) : (l.indent v).text = v ++ l.text := by
  cases l <;> simp [indent, text]

@[simp] theorem tokens_indent (v : List Char) (l : Layout) : (l.indent v).tokens = l.tokens := by
  cases l <;> simp [indent, tokens]

theorem valid_indent {v : List Char} {l : Layout} (hv : IsBlankRun v) (hl : l.Valid) :
    (l.indent v).Valid := by
  have both {w : List Char} (hw : IsBlankRun w) : IsBlankRun (v ++ w) := by
    intro c hc
    rcases List.mem_append.1 hc with hc | hc
    · exact hv c hc
    · exact hw c hc
  cases l with
  | blanks w => exact both hl
  | piece w t rest => exact ⟨both hl.1, hl.2⟩

theorem apart_indent (t : Token) {v : List Char} (ne : v ≠ []) (l : Layout) :
    Apart t (l.indent v) := by
  cases l with
  | blanks w => trivial
  | piece w u rest =>
      intro _ _ h
      exact ne (List.append_eq_nil_iff.1 h).1

/-- The literal whose characters have been met in reverse before a layout; without characters there
is none. -/
def afterRun (run : List Char) (l : Layout) : Layout :=
  if run.isEmpty then l else piece [] (literal (.ofList run.reverse)) l

theorem text_afterRun (run : List Char) (l : Layout) :
    (l.afterRun run).text = run.reverse ++ l.text := by
  cases run <;> simp [afterRun, text, literal]

theorem tokens_afterRun (run : List Char) (tokens : List Token) (l : Layout) :
    (flush run tokens).reverse ++ l.tokens = tokens.reverse ++ (l.afterRun run).tokens := by
  cases run <;> simp [afterRun, flush, Layout.tokens]

theorem valid_afterRun {run : List Char} (hr : ∀ c ∈ run, isLiteralChar c) {l : Layout}
    (hl : l.Valid) (ha : ∀ t : Token, Apart t l) : (l.afterRun run).Valid := by
  unfold afterRun
  split
  · exact hl
  · rename_i ne
    refine ⟨by simp [IsBlankRun], .literal ?_ ?_, ha _, hl⟩
    · simpa using ne
    · intro c hc
      exact hr c (by simpa using hc)

end Layout

/-- A parenthesis after a run, before a text that has a layout. -/
theorem exists_layout_of_parenthesis {p : Token} {run rest : List Char} {tokens ts : List Token}
    (hp : p.IsLexeme) (hk : p.kind ≠ .literal) (hr : ∀ c ∈ run, isLiteralChar c)
    (h : ∃ l : Layout, l.Valid ∧ l.text = rest ∧ (p :: flush run tokens).reverse ++ l.tokens = ts) :
    ∃ l : Layout, l.Valid ∧ l.text = run.reverse ++ (p.text.toList ++ rest) ∧
      tokens.reverse ++ l.tokens = ts := by
  obtain ⟨l, hv, rfl, rfl⟩ := h
  have valid : (Layout.piece [] p l).Valid :=
    ⟨by simp [IsBlankRun], hp, Layout.apart_of_kind_ne hk l, hv⟩
  refine ⟨(Layout.piece [] p l).afterRun run,
    Layout.valid_afterRun hr valid fun t _ literal => absurd literal hk, ?_, ?_⟩
  · rw [Layout.text_afterRun]
    simp [Layout.text]
  · rw [← Layout.tokens_afterRun]
    simp [Layout.tokens]

/-- Whatever is split without an error is the text of a valid layout. -/
theorem exists_layout_of_lexFrom : ∀ {cs run : List Char} {offset : Nat} {tokens ts : List Token},
    (∀ c ∈ run, isLiteralChar c) → lexFrom offset run tokens cs = (ts, none) →
      ∃ l : Layout, l.Valid ∧ l.text = run.reverse ++ cs ∧ tokens.reverse ++ l.tokens = ts
  | [], run, offset, tokens, ts, hr, h => by
      have empty : (Layout.blanks []).Valid := by simp [Layout.Valid, IsBlankRun]
      refine ⟨(Layout.blanks []).afterRun run, Layout.valid_afterRun hr empty fun _ => trivial, ?_, ?_⟩
      · rw [Layout.text_afterRun]
        rfl
      · simp only [lexFrom, Prod.mk.injEq, and_true] at h
        rw [← Layout.tokens_afterRun, ← h]
        simp [Layout.tokens]
  | c :: rest, run, offset, tokens, ts, hr, h => by
      rw [lexFrom] at h
      by_cases blank : isBlank c
      · rw [if_pos blank] at h
        obtain ⟨l, hv, ht, hts⟩ := exists_layout_of_lexFrom (by simp) h
        have single : IsBlankRun [c] := by simpa [IsBlankRun] using blank
        refine ⟨(l.indent [c]).afterRun run, Layout.valid_afterRun hr (Layout.valid_indent single hv)
          fun t => Layout.apart_indent t (by simp) l, ?_, ?_⟩
        · rw [Layout.text_afterRun, Layout.text_indent, ht]
          simp
        · rw [← Layout.tokens_afterRun, Layout.tokens_indent, hts]
      rw [if_neg blank] at h
      by_cases isOpening : c = '('
      · rw [if_pos isOpening] at h
        subst isOpening
        exact exists_layout_of_parenthesis .opening (by decide) hr
          (exists_layout_of_lexFrom (by simp) h)
      rw [if_neg isOpening] at h
      by_cases isClosing : c = ')'
      · rw [if_pos isClosing] at h
        subst isClosing
        exact exists_layout_of_parenthesis .closing (by decide) hr
          (exists_layout_of_lexFrom (by simp) h)
      rw [if_neg isClosing] at h
      by_cases printable : isPrintable c
      · rw [if_pos printable] at h
        have part : isLiteralChar c := by
          simp [isLiteralChar, blank, isOpening, isClosing, printable]
        have longer : ∀ x ∈ c :: run, isLiteralChar x := by simpa [part] using hr
        obtain ⟨l, hv, ht, hts⟩ := exists_layout_of_lexFrom longer h
        exact ⟨l, hv, by simpa using ht, hts⟩
      · rw [if_neg printable] at h
        cases h

/-! ### The grammar -/

theorem tokenize_eq_ok_iff_lexFrom {s : String} {ts : List Token} :
    tokenize s = .ok ts ↔ lexFrom 0 [] [] s.toList = (ts, none) := by
  unfold tokenize lex
  split <;> rename_i h <;> simp [h]

theorem tokenize_text {l : Layout} (hl : l.Valid) : tokenize (.ofList l.text) = .ok l.tokens := by
  rw [tokenize_eq_ok_iff_lexFrom, String.toList_ofList, lexFrom_text 0 [] hl]
  rfl

theorem exists_layout_of_tokenize {s : String} {ts : List Token} (h : tokenize s = .ok ts) :
    ∃ l : Layout, l.Valid ∧ l.text = s.toList ∧ l.tokens = ts := by
  obtain ⟨l, hv, ht, hts⟩ := exists_layout_of_lexFrom (by simp) (tokenize_eq_ok_iff_lexFrom.1 h)
  exact ⟨l, hv, by simpa using ht, by simpa using hts⟩

theorem isLexeme_of_tokenize {s : String} {ts : List Token} (h : tokenize s = .ok ts) :
    ∀ t ∈ ts, t.IsLexeme := by
  obtain ⟨l, hv, -, rfl⟩ := exists_layout_of_tokenize h
  exact Layout.isLexeme_of_mem_tokens hv

/-- **The token grammar.**  A text is split into `ts` exactly if it has a valid layout with these
tokens; it has at most one valid layout; and valid layouts with the same tokens, whatever their
blanks, are split alike. -/
theorem tokenize_grammar :
    (∀ (s : String) (ts : List Token), tokenize s = .ok ts ↔
      ∃ l : Layout, l.Valid ∧ l.text = s.toList ∧ l.tokens = ts) ∧
    (∀ l k : Layout, l.Valid → k.Valid → l.text = k.text → l = k) ∧
    (∀ l k : Layout, l.Valid → k.Valid → l.tokens = k.tokens →
      tokenize (.ofList l.text) = tokenize (.ofList k.text)) := by
  refine ⟨?_, ?_, ?_⟩
  · intro s ts
    constructor
    · intro h
      exact exists_layout_of_tokenize h
    · rintro ⟨l, hv, ht, rfl⟩
      have lexed := tokenize_text hv
      rwa [ht, String.ofList_toList] at lexed
  · intro l k hl hk h
    exact Layout.eq_of_text_eq hl hk h
  · intro l k hl hk h
    rw [tokenize_text hl, tokenize_text hk, h]

/-- Two spacings of one call: `(f 1` as it is, and spread over lines. -/
theorem tokenize_grammar_of_spread_call :
    (Layout.piece [] opening (.piece [] (literal "f") (.piece [' '] (literal "1") (.blanks [])))).Valid ∧
    (Layout.piece ['\n'] opening
      (.piece [' '] (literal "f") (.piece ['\n', ' '] (literal "1") (.blanks ['\n'])))).Valid ∧
    tokenize (.ofList (Layout.piece [] opening
      (.piece [] (literal "f") (.piece [' '] (literal "1") (.blanks [])))).text) =
    tokenize (.ofList (Layout.piece ['\n'] opening
      (.piece [' '] (literal "f") (.piece ['\n', ' '] (literal "1") (.blanks ['\n'])))).text) := by
  have first : (Layout.piece [] opening
      (.piece [] (literal "f") (.piece [' '] (literal "1") (.blanks [])))).Valid := by decide
  have second : (Layout.piece ['\n'] opening
      (.piece [' '] (literal "f") (.piece ['\n', ' '] (literal "1") (.blanks ['\n'])))).Valid := by
    decide
  exact ⟨first, second, tokenize_grammar.2.2 _ _ first second rfl⟩

end Token
end DynLisp
