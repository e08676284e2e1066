import DynLisp.Expr.Source
import DynLisp.Proofs.Number.PlainNotation
import DynLisp.Proofs.Spelling
import DynLisp.Proofs.TokenLayout

/-! # Source forms read back

The source form of an expression is read as the expression itself, as long as every symbol in it has
a name that reads as this symbol (`Writable`); and these are all expressions that any text can be read
as.

* `sourceLayout` lays the source form out into blanks and tokens.  Its text is the source form
  (`text_sourceLayout`), it is valid (`valid_sourceLayout`), and its tokens spell the expression
  (`spells_sourceLayout`).
* `writable_of_spells`: whatever lexemes spell is writable.

Numbers are the same here when they have the same bits, so that the two zeros are told apart and NaN is
itself. -/

namespace DynLisp
namespace Expr

open Token (isLiteralChar IsLexeme IsBlankRun Layout)
open Token.Layout (Apart)

/-! ### Writable expressions -/

/-- A name that reads as a symbol of this name. -/
structure IsSymbolName (name : String) : Prop where
  nonempty : name.toList ≠ []
  chars : ∀ c ∈ name.toList, isLiteralChar c
  notNumeral : Numeral.read? name = none

mutual

/-- All names in the expression are names of symbols. -/
def Writable : Expr → Prop
  | number _ => True
  | symbol name => IsSymbolName name
  | list items => ItemsWritable items

def ItemsWritable : List Expr → Prop
  | [] => True
  | item :: rest => item.Writable ∧ ItemsWritable rest

end

theorem isSymbolName_iff (name : String) : IsSymbolName name ↔
    name.toList ≠ [] ∧ name.toList.all isLiteralChar ∧ Numeral.read? name = none :=
  ⟨fun h => ⟨h.nonempty, List.all_eq_true.2 h.chars, h.notNumeral⟩,
    fun h => ⟨h.1, List.all_eq_true.1 h.2.1, h.2.2⟩⟩

instance (name : String) : Decidable (IsSymbolName name) :=
  decidable_of_iff _ (isSymbolName_iff name).symm

mutual

instance decidableWritable : ∀ e : Expr, Decidable e.Writable
  | number _ => isTrue trivial
  | symbol name => inferInstanceAs (Decidable (IsSymbolName name))
  | list items => decidableItemsWritable items

instance decidableItemsWritable : ∀ items : List Expr, Decidable (ItemsWritable items)
  | [] => isTrue trivial
  | item :: rest =>
      have := decidableWritable item
      have := decidableItemsWritable rest
      inferInstanceAs (Decidable (item.Writable ∧ ItemsWritable rest))

end

theorem ofLiteral_plain (x : Float) : ofLiteral (Numeral.plain x) = number x := by
  simp only [ofLiteral, Numeral.read?_plain]

theorem ofLiteral_of_isSymbolName {name : String} (h : IsSymbolName name) :
    ofLiteral name = symbol name := by
  simp only [ofLiteral, h.notNumeral]

/-! ### The layout of a source form -/

mutual

/-- The source form as blanks and tokens, with blanks before it and something else after it. -/
def sourceLayout : Expr → List Char → Layout → Layout
  | number x, w, rest => .piece w (Token.literal (Numeral.plain x)) rest
  | symbol name, w, rest => .piece w (Token.literal name) rest
  | list items, w, rest => .piece w Token.opening (itemsLayout items [] (.piece [] Token.closing rest))

/-- The items of a list, with blanks before the first one and single spaces between them. -/
def itemsLayout : List Expr → List Char → Layout → Layout
  | [], _, rest => rest
  | item :: others, w, rest => sourceLayout item w (itemsLayout others [' '] rest)

end

/-- Nothing before a layout has to be kept apart from it. -/
def Detached (l : Layout) : Prop := ∀ t : Token, Apart t l

theorem detached_closing (w : List Char) (rest : Layout) : Detached (.piece w Token.closing rest) :=
  fun _ _ closing => by cases closing

theorem detached_sourceLayout {w : List Char} (hw : w ≠ []) (e : Expr) (rest : Layout) :
    Detached (sourceLayout e w rest) := by
  cases e <;> exact fun _ _ _ => hw

theorem detached_itemsLayout {w : List Char} (hw : w ≠ []) (items : List Expr) {rest : Layout}
    (hr : Detached rest) : Detached (itemsLayout items w rest) := by
  cases items with
  | nil => exact hr
  | cons item others => exact detached_sourceLayout hw item _

mutual

theorem text_sourceLayout : ∀ (e : Expr) (w : List Char) (rest : Layout),
    (sourceLayout e w rest).text = w ++ (e.source.toList ++ rest.text)
  | number x, w, rest => rfl
  | symbol name, w, rest => rfl
  | list items, w, rest => by
      simp only [sourceLayout, Layout.text, text_itemsLayout items [] _ fun _ => rfl, source]
      simp [Token.opening, Token.closing]

/-- Blanks before no items at all would be lost. -/
theorem text_itemsLayout : ∀ (items : List Expr) (w : List Char) (rest : Layout),
    (items = [] → w = []) →
      (itemsLayout items w rest).text = w ++ ((sourceOfItems items).toList ++ rest.text)
  | [], w, rest, hw => by
      rw [hw rfl]
      rfl
  | [item], w, rest, _ => text_sourceLayout item w rest
  | item :: next :: others, w, rest, _ => by
      have more := text_itemsLayout (next :: others) [' '] rest fun h => by cases h
      rw [itemsLayout, text_sourceLayout, more]
      simp [sourceOfItems]

end

mutual

theorem valid_sourceLayout : ∀ {e : Expr} {w : List Char} {rest : Layout}, e.Writable →
    IsBlankRun w → rest.Valid → Detached rest → (sourceLayout e w rest).Valid
  | number x, _, _, _, hw, hv, hd =>
      ⟨hw, .literal (Numeral.plain_ne_nil x) (Numeral.isLiteralChar_plain x), hd _, hv⟩
  | symbol _, _, _, he, hw, hv, hd => ⟨hw, .literal he.nonempty he.chars, hd _, hv⟩
  | list items, _, rest, he, hw, hv, _ => by
      have noBlanks : IsBlankRun [] := by decide
      have close : (Layout.piece [] Token.closing rest).Valid :=
        ⟨noBlanks, .closing, Token.Layout.apart_of_kind_ne (by decide) rest, hv⟩
      exact ⟨hw, .opening, Token.Layout.apart_of_kind_ne (by decide) _,
        valid_itemsLayout he noBlanks close (detached_closing [] rest)⟩

theorem valid_itemsLayout : ∀ {items : List Expr} {w : List Char} {rest : Layout},
    ItemsWritable items → IsBlankRun w → rest.Valid → Detached rest →
      (itemsLayout items w rest).Valid
  | [], _, _, _, _, hv, _ => hv
  | item :: others, _, _, hi, hw, hv, hd => by
      have space : IsBlankRun [' '] := by decide
      exact valid_sourceLayout hi.1 hw (valid_itemsLayout hi.2 space hv hd)
        (detached_itemsLayout (by simp) others hd)

end

mutual

theorem spells_sourceLayout : ∀ {e : Expr} (w : List Char) (rest : Layout), e.Writable →
    ∃ ts, (sourceLayout e w rest).tokens = ts ++ rest.tokens ∧ Spells e ts
  | number x, w, rest, _ => by
      have spelled : Spells (ofLiteral (Numeral.plain x)) [Token.literal (Numeral.plain x)] :=
        .literal (t := Token.literal (Numeral.plain x)) rfl
      rw [ofLiteral_plain] at spelled
      exact ⟨_, rfl, spelled⟩
  | symbol name, w, rest, he => by
      have spelled : Spells (ofLiteral name) [Token.literal name] :=
        .literal (t := Token.literal name) rfl
      rw [ofLiteral_of_isSymbolName he] at spelled
      exact ⟨_, rfl, spelled⟩
  | list items, w, rest, he => by
      obtain ⟨ts, cut, spelled⟩ := spells_itemsLayout [] (.piece [] Token.closing rest) he
      have parenthesized : Spells (list items) (Token.opening :: (ts ++ [Token.closing])) :=
        .list rfl spelled rfl
      refine ⟨_, ?_, parenthesized⟩
      simp [sourceLayout, Layout.tokens, cut]

theorem spells_itemsLayout : ∀ {items : List Expr} (w : List Char) (rest : Layout),
    ItemsWritable items →
      ∃ ts, (itemsLayout items w rest).tokens = ts ++ rest.tokens ∧ SpellsItems items ts
  | [], _, _, _ => ⟨[], rfl, .nil⟩
  | item :: others, w, rest, hi => by
      obtain ⟨us, cutOthers, spelledOthers⟩ := spells_itemsLayout [' '] rest hi.2
      obtain ⟨ts, cut, spelled⟩ := spells_sourceLayout w (itemsLayout others [' '] rest) hi.1
      refine ⟨ts ++ us, ?_, .cons spelled spelledOthers⟩
      rw [itemsLayout, cut, cutOthers, List.append_assoc]

end

/-! ### Reading texts -/

theorem parseRoot_eq_ok_iff {limit : Nat} {ts : List Token} {e : Expr} {left : Nat} :
    parseRoot limit ts = .ok (e, left) ↔
      ∃ used rest, ts = used ++ rest ∧ Spells e used ∧ e.nesting ≤ limit ∧ left = rest.length := by
  unfold parseRoot
  constructor
  · intro h
    cases hp : parseAt limit ts 0 with
    | error err => simp [hp, Except.map] at h
    | ok stop =>
        obtain ⟨next, f⟩ := stop
        simp only [hp, Except.map, Except.ok.injEq, Prod.mk.injEq] at h
        obtain ⟨rfl, rfl⟩ := h
        obtain ⟨-, -, spelled, nested⟩ := parseAt_eq_ok_iff.1 hp
        rw [List.extract_eq_take_drop, List.drop_zero, Nat.sub_zero] at spelled
        exact ⟨_, _, (List.take_append_drop next ts).symm, spelled, nested, by simp⟩
  · rintro ⟨used, rest, rfl, spelled, nested, rfl⟩
    have whole : parseAt limit (used ++ rest) 0 = .ok (used.length, e) :=
      parseAt_eq_ok_iff.2 ⟨spelled.length_pos, by simp, by simpa using spelled, nested⟩
    simp [whole, Except.map]

/-- Reading a source form gives back the expression and leaves no token. -/
theorem exists_tokens_of_source {e : Expr} (he : e.Writable) : ∃ ts,
    Token.tokenize e.source = .ok ts ∧
      ∀ limit, e.nesting ≤ limit → parseRoot limit ts = .ok (e, 0) := by
  have noBlanks : IsBlankRun [] := by decide
  have valid : (sourceLayout e [] (.blanks [])).Valid :=
    valid_sourceLayout he noBlanks noBlanks fun _ => trivial
  obtain ⟨ts, cut, spelled⟩ := spells_sourceLayout [] (.blanks []) he
  have lexed := Token.tokenize_text valid
  rw [text_sourceLayout, cut] at lexed
  simp only [Layout.text, Layout.tokens, List.nil_append, List.append_nil,
    String.ofList_toList] at lexed
  exact ⟨ts, lexed, fun limit hl => parseRoot_eq_ok_iff.2 ⟨ts, [], by simp, spelled, hl, rfl⟩⟩

mutual

/-- Whatever lexemes spell is writable. -/
theorem writable_of_spells {e : Expr} {ts : List Token} (h : Spells e ts)
    (hts : ∀ t ∈ ts, t.IsLexeme) : e.Writable := by
  cases h with
  | @literal t ht =>
      have lexeme := hts t (by simp)
      unfold ofLiteral
      split
      · trivial
      · rename_i notNumeral
        cases lexeme with
        | opening => cases ht
        | closing => cases ht
        | literal ne all => exact ⟨ne, all, notNumeral⟩
  | list _ hi _ => exact itemsWritable_of_spells hi fun t ht => hts t (by simp [ht])

theorem itemsWritable_of_spells {items : List Expr} {ts : List Token} (h : SpellsItems items ts)
    (hts : ∀ t ∈ ts, t.IsLexeme) : ItemsWritable items := by
  cases h with
  | nil => trivial
  | cons first others =>
      exact ⟨writable_of_spells first fun t ht => hts t (by simp [ht]),
        itemsWritable_of_spells others fun t ht => hts t (by simp [ht])⟩

end

/-- The expression that a text begins with. -/
def ofText? (limit : Nat) (s : String) : Option Expr :=
  match Token.tokenize s with
  | .ok ts => (parseRoot limit ts).toOption.map Prod.fst
  | .error _ => none

/-- A text written anew from the expression that it begins with. -/
def rewrite? (limit : Nat) (s : String) : Option String :=
  (ofText? limit s).map source

theorem ofText?_eq_some_iff {limit : Nat} {s : String} {e : Expr} : ofText? limit s = some e ↔
    ∃ ts left, Token.tokenize s = .ok ts ∧ parseRoot limit ts = .ok (e, left) := by
  unfold ofText?
  cases Token.tokenize s with
  | error err => simp
  | ok ts =>
      cases hp : parseRoot limit ts with
      | error err => simp [hp, Except.toOption]
      | ok result => simp [hp, Except.toOption, Prod.ext_iff]

/-- What is read from a text is writable and keeps to the limit of reading. -/
theorem writable_of_ofText? {limit : Nat} {s : String} {e : Expr} (h : ofText? limit s = some e) :
    e.Writable ∧ e.nesting ≤ limit := by
  obtain ⟨ts, left, lexed, parsed⟩ := ofText?_eq_some_iff.1 h
  obtain ⟨used, rest, rfl, spelled, nested, -⟩ := parseRoot_eq_ok_iff.1 parsed
  have lexemes := Token.isLexeme_of_tokenize lexed
  exact ⟨writable_of_spells spelled fun t ht => lexemes t (List.mem_append_left rest ht), nested⟩

theorem ofText?_source {limit : Nat} {e : Expr} (he : e.Writable) (hl : e.nesting ≤ limit) :
    ofText? limit e.source = some e := by
  obtain ⟨ts, lexed, parsed⟩ := exists_tokens_of_source he
  exact ofText?_eq_some_iff.2 ⟨ts, 0, lexed, parsed limit hl⟩

/-- **Writing, then reading.**  The source form of a writable expression is split into tokens, and
reading these gives the expression back and leaves none; the writable expressions are exactly those
that some text is read as; and a text written anew from what was read stays as it is when this is
done again. -/
theorem source_reads_back :
    (∀ e : Expr, e.Writable → ∃ ts, Token.tokenize e.source = .ok ts ∧
      ∀ limit, e.nesting ≤ limit → parseRoot limit ts = .ok (e, 0)) ∧
    (∀ e : Expr, e.Writable ↔ ∃ limit s, ofText? limit s = some e) ∧
    (∀ (limit : Nat) (s t : String), rewrite? limit s = some t → rewrite? limit t = some t) := by
  refine ⟨?_, ?_, ?_⟩
  · intro e he
    exact exists_tokens_of_source he
  · intro e
    constructor
    · intro he
      exact ⟨e.nesting, e.source, ofText?_source he (Nat.le_refl _)⟩
    · rintro ⟨limit, s, h⟩
      exact (writable_of_ofText? h).1
  · intro limit s t h
    obtain ⟨e, read, rfl⟩ := Option.map_eq_some_iff.1 h
    obtain ⟨writable, nested⟩ := writable_of_ofText? read
    rw [rewrite?, ofText?_source writable nested]
    rfl

/-- Negative zero, NaN and a name that is almost a numeral are read back; `( f` and a line end before
the parenthesis that closes are written anew as `(f)`, which stays as it is. -/
theorem source_reads_back_of_call :
    (∃ ts, Token.tokenize
        (list [number (Binary64.ofPattern true 0), symbol "1_000", list [number Binary64.nan]]).source =
          .ok ts ∧
      ∀ limit, (list [number (Binary64.ofPattern true 0), symbol "1_000",
          list [number Binary64.nan]]).nesting ≤ limit →
        parseRoot limit ts = .ok (list [number (Binary64.ofPattern true 0), symbol "1_000",
          list [number Binary64.nan]], 0)) ∧
    rewrite? 1 "( f\n) x" = some "(f)" ∧ rewrite? 1 "(f)" = some "(f)" := by
  have writable : (list [number (Binary64.ofPattern true 0), symbol "1_000",
      list [number Binary64.nan]]).Writable := by decide
  have anew : rewrite? 1 "( f\n) x" = some "(f)" := by decide +kernel
  exact ⟨source_reads_back.1 _ writable, anew, source_reads_back.2.2 _ _ _ anew⟩

end Expr
end DynLisp
