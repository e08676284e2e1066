import DynLisp.Proofs.ReadBack
import DynLisp.Rendering

/-! # The names in expressions and environments

* `Expr.names` are the names of the symbols in an expression; the `vocabulary` of an environment are
  the names bound in it, with the parameters and the names in the bodies of their bindings.
* `names_of_spells`: the tokens that spell an expression hold its names, in the same order.
* `IsVocabulary V` says that the names in `V` are names of symbols and that the verdicts are among
  them.  What is rendered with names from such a `V` stays on one line (`isLine_of_render`).

Whatever an operation of environments does, it brings in no name that was not there or given to it. -/

namespace DynLisp

open Token (isLiteralChar)
open Text (isPrintable)

/-! ### Names of an expression -/

namespace Expr

mutual

/-- The names of the symbols in an expression, from left to right. -/
def names : Expr → List String
  | number _ => []
  | symbol name => [name]
  | list items => namesOfItems items

def namesOfItems : List Expr → List String
  | [] => []
  | item :: rest => item.names ++ namesOfItems rest

end

@[simp] theorem names_number (x : Float) : (number x).names = [] := by simp [names]

@[simp] theorem names_symbol (name : String) : (symbol name).names = [name] := by simp [names]

@[simp] theorem names_list (items : List Expr) : (list items).names = items.flatMap names := by
  rw [names]
  induction items with
  | nil => simp [namesOfItems]
  | cons item rest ih => rw [namesOfItems, ih, List.flatMap_cons]

theorem names_list_subset_iff {items : List Expr} {V : List String} :
    (list items).names ⊆ V ↔ ∀ item ∈ items, item.names ⊆ V := by
  rw [names_list]
  constructor
  · intro h item hi name hn
    exact h (List.mem_flatMap.2 ⟨item, hi, hn⟩)
  · intro h name hn
    obtain ⟨item, hi, hn⟩ := List.mem_flatMap.1 hn
    exact h item hi hn

theorem name?_eq_some_iff {e : Expr} {name : String} : e.name? = some name ↔ e = symbol name := by
  cases e <;> simp [name?]

mutual

theorem writable_iff_names : ∀ e : Expr, e.Writable ↔ ∀ name ∈ e.names, IsSymbolName name
  | number _ => by simp [Writable]
  | symbol name => by simp [Writable]
  | list items => by
      rw [Writable, itemsWritable_iff_names items, names_list]
      simp only [List.mem_flatMap]
      exact ⟨fun h name ⟨item, hi, hn⟩ => h item hi name hn, fun h item hi name hn => h name ⟨item, hi, hn⟩⟩

theorem itemsWritable_iff_names : ∀ items : List Expr,
    ItemsWritable items ↔ ∀ item ∈ items, ∀ name ∈ item.names, IsSymbolName name
  | [] => by simp [ItemsWritable]
  | item :: rest => by
      rw [ItemsWritable, writable_iff_names item, itemsWritable_iff_names rest, List.forall_mem_cons]

end

end Expr

/-! ### Names of tokens -/

namespace Token

/-- The name of the symbol that a literal reads as. -/
def symbolName? (t : Token) : Option String :=
  if t.kind = .literal ∧ (Numeral.read? t.text).isNone then some t.text else none

/-- The names of the symbols that the literals of a text read as; none if the text cannot be split into
tokens. -/
def symbolNames (s : String) : List String :=
  match tokenize s with
  | .ok ts => ts.filterMap symbolName?
  | .error _ => []

theorem isSymbolName_of_mem_symbolNames {s name : String} (h : name ∈ symbolNames s) :
    Expr.IsSymbolName name := by
  unfold symbolNames at h
  split at h
  · rename_i ts lexed
    obtain ⟨t, ht, hn⟩ := List.mem_filterMap.1 h
    unfold symbolName? at hn
    split at hn
    · rename_i reads
      obtain rfl := Option.some.inj hn
      cases isLexeme_of_tokenize lexed t ht with
      | opening => cases reads.1
      | closing => cases reads.1
      | literal ne all => exact ⟨ne, all, Option.isNone_iff_eq_none.1 reads.2⟩
    · cases hn
  · cases h

end Token

namespace Expr

theorem names_ofLiteral {t : Token} (ht : t.kind = .literal) :
    (ofLiteral t.text).names = t.symbolName?.toList := by
  unfold ofLiteral Token.symbolName?
  split <;> rename_i h <;> simp [ht, h]

mutual

/-- The names in an expression are those in the tokens that spell it. -/
theorem names_of_spells {e : Expr} {ts : List Token} (h : Spells e ts) :
    e.names = ts.filterMap Token.symbolName? := by
  cases h with
  | @literal t ht =>
      rw [names_ofLiteral ht]
      cases hs : t.symbolName? <;> simp [hs]
  | @list items ts first last hf hi hc =>
      have parenthesis {t : Token} (ht : t.kind ≠ .literal) : t.symbolName? = none :=
        if_neg fun h => ht h.1
      have opening := parenthesis (t := first) (by simp [hf])
      have closing := parenthesis (t := last) (by simp [hc])
      rw [names_list, names_of_spellsItems hi]
      simp [opening, closing]

theorem names_of_spellsItems {es : List Expr} {ts : List Token} (h : SpellsItems es ts) :
    es.flatMap names = ts.filterMap Token.symbolName? := by
  cases h with
  | nil => rfl
  | cons first others =>
      rw [List.flatMap_cons, names_of_spells first, names_of_spellsItems others,
        List.filterMap_append]

end

end Expr

/-! ### Names of an environment -/

/-- The parameters of a binding and the names in its body. -/
def Binding.vocabulary (b : Binding) : List String :=
  b.params ++ b.body.names

namespace Frame

/-- The names bound in a frame, and those in their bindings. -/
def vocabulary (f : Frame) : List String :=
  f.entries.flatMap fun entry => entry.1 :: entry.2.vocabulary

theorem vocabulary_subset_iff {f : Frame} {V : List String} :
    f.vocabulary ⊆ V ↔ ∀ entry ∈ f.entries, entry.1 ∈ V ∧ entry.2.vocabulary ⊆ V := by
  constructor
  · intro h entry he
    rw [← List.cons_subset]
    exact fun name hn => h (List.mem_flatMap.2 ⟨entry, he, hn⟩)
  · intro h name hn
    obtain ⟨entry, he, hn⟩ := List.mem_flatMap.1 hn
    exact List.cons_subset.2 (h entry he) hn

theorem vocabulary_of_find? {f : Frame} {name : String} {b : Binding} {V : List String}
    (hb : f.find? name = some b) (h : f.vocabulary ⊆ V) : b.vocabulary ⊆ V := by
  obtain ⟨before, after, split, -⟩ := List.lookup_eq_some_iff.1 hb
  exact (vocabulary_subset_iff.1 h (name, b) (by simp [split])).2

theorem mem_bindEntry {name : String} {b : Binding} {entry : String × Binding} :
    ∀ {entries : List (String × Binding)}, entry ∈ bindEntry name b entries →
      entry = (name, b) ∨ entry ∈ entries
  | [], h => .inl (by simpa [bindEntry] using h)
  | first :: rest, h => by
      rw [bindEntry] at h
      split at h
      · rcases List.mem_cons.1 h with new | old
        · exact .inl new
        · exact .inr (List.mem_cons_of_mem _ old)
      · rcases List.mem_cons.1 h with kept | later
        · exact .inr (kept ▸ List.mem_cons_self)
        · exact (mem_bindEntry later).imp id (List.mem_cons_of_mem _)

theorem vocabulary_bind {f : Frame} {name : String} {b : Binding} {V : List String}
    (hf : f.vocabulary ⊆ V) (hn : name ∈ V) (hb : b.vocabulary ⊆ V) :
    (f.bind name b).vocabulary ⊆ V := by
  rw [vocabulary_subset_iff] at hf ⊢
  intro entry he
  rcases mem_bindEntry he with rfl | old
  · exact ⟨hn, hb⟩
  · exact hf entry old

theorem vocabulary_ofValues {pairs : List (String × Expr)} {V : List String}
    (h : ∀ pair ∈ pairs, pair.1 ∈ V ∧ pair.2.names ⊆ V) : (ofValues pairs).vocabulary ⊆ V := by
  have fold : ∀ (pairs : List (String × Expr)) (f : Frame), f.vocabulary ⊆ V →
      (∀ pair ∈ pairs, pair.1 ∈ V ∧ pair.2.names ⊆ V) →
        (pairs.foldl (fun f pair => f.bind pair.1 (.ofValue pair.2)) f).vocabulary ⊆ V := by
    intro pairs
    induction pairs with
    | nil => exact fun f hf _ => hf
    | cons pair rest ih =>
        intro f hf hp
        obtain ⟨name, value⟩ := hp pair List.mem_cons_self
        exact ih _ (vocabulary_bind hf name value) fun p hr => hp p (List.mem_cons_of_mem _ hr)
  exact fold pairs empty (List.nil_subset V) h

end Frame

namespace Environment

/-- The names bound in any frame, and those in their bindings. -/
def vocabulary (env : Environment) : List String :=
  env.frames.flatMap Frame.vocabulary

theorem vocabulary_subset_iff {env : Environment} {V : List String} :
    env.vocabulary ⊆ V ↔ ∀ f ∈ env.frames, f.vocabulary ⊆ V := by
  constructor
  · intro h f hf name hn
    exact h (List.mem_flatMap.2 ⟨f, hf, hn⟩)
  · intro h name hn
    obtain ⟨f, hf, hn⟩ := List.mem_flatMap.1 hn
    exact h f hf hn

theorem vocabulary_of_lookup {env : Environment} {name : String} {b : Binding} {V : List String}
    (hb : env.lookup name = some b) (h : env.vocabulary ⊆ V) : b.vocabulary ⊆ V := by
  obtain ⟨f, hf, found⟩ := List.exists_of_findSome?_eq_some hb
  exact Frame.vocabulary_of_find? found (vocabulary_subset_iff.1 h f hf)

theorem vocabulary_push {env : Environment} {f : Frame} {V : List String}
    (h : env.vocabulary ⊆ V) (hf : f.vocabulary ⊆ V) : (env.push f).vocabulary ⊆ V :=
  List.append_subset.2 ⟨hf, h⟩

theorem vocabulary_dropInnermost {env : Environment} {V : List String} (h : env.vocabulary ⊆ V) :
    env.dropInnermost.vocabulary ⊆ V := by
  rw [vocabulary_subset_iff] at h ⊢
  exact fun f hf => h f (List.mem_of_mem_tail hf)

theorem vocabulary_of_bind {env env' : Environment} {name : String} {b : Binding} {V : List String}
    (hb : env.bind name b = .ok env') (h : env.vocabulary ⊆ V) (hn : name ∈ V)
    (hv : b.vocabulary ⊆ V) : env'.vocabulary ⊆ V := by
  obtain ⟨frames⟩ := env
  cases frames with
  | nil => simp [bind] at hb
  | cons inner outer =>
      simp only [bind, Except.ok.injEq] at hb
      subst hb
      obtain ⟨hi, ho⟩ := List.append_subset.1 h
      exact List.append_subset.2 ⟨Frame.vocabulary_bind hi hn hv, ho⟩

end Environment

/-! ### Lines -/

/-- A text without line ends: all its characters are graphic, or spaces. -/
def IsLine (s : String) : Prop := ∀ c ∈ s.toList, isPrintable c

instance (s : String) : Decidable (IsLine s) :=
  decidable_of_iff (s.toList.all isPrintable) List.all_eq_true

theorem IsLine.append {s t : String} (hs : IsLine s) (ht : IsLine t) : IsLine (s ++ t) := by
  intro c hc
  rw [String.toList_append, List.mem_append] at hc
  exact hc.elim (hs c) (ht c)

theorem IsLine.of_chars {s : String} (h : ∀ c ∈ s.toList, isLiteralChar c) : IsLine s := by
  intro c hc
  have part := h c hc
  simp only [isLiteralChar, Bool.and_eq_true] at part
  exact part.1.1.1

theorem isLine_intercalate {separator : String} (hs : IsLine separator) :
    ∀ {texts : List String}, (∀ text ∈ texts, IsLine text) → IsLine (separator.intercalate texts)
  | [], _ => by simp [IsLine]
  | [text], h => by simpa using h text
  | text :: next :: rest, h => by
      have first : IsLine text := h text List.mem_cons_self
      have others : IsLine (separator.intercalate (next :: rest)) :=
        isLine_intercalate hs fun t ht => h t (List.mem_cons_of_mem _ ht)
      have cut : separator.intercalate (text :: next :: rest) =
          text ++ separator ++ separator.intercalate (next :: rest) := by
        apply String.toList_inj.1
        simp [String.toList_intercalate]
      rw [cut]
      exact (first.append hs).append others

theorem exists_mem_of_mapM {α β : Type} {f : α → Option β} : ∀ {as : List α} {bs : List β},
    as.mapM f = some bs → ∀ b ∈ bs, ∃ a ∈ as, f a = some b
  | [], bs, h, b, hb => by
      obtain rfl : [] = bs := by simpa using h
      cases hb
  | a :: as, _, h, b, hb => by
      simp only [List.mapM_cons, bind, Option.bind_eq_some_iff, pure, Option.some.injEq] at h
      obtain ⟨first, ha, others, has, rfl⟩ := h
      rcases List.mem_cons.1 hb with rfl | hb
      · exact ⟨a, List.mem_cons_self, ha⟩
      · obtain ⟨a', ha', hf⟩ := exists_mem_of_mapM has b hb
        exact ⟨a', List.mem_cons_of_mem _ ha', hf⟩

/-- Names of symbols, with the verdicts among them. -/
structure IsVocabulary (V : List String) : Prop where
  symbols : ∀ name ∈ V, Expr.IsSymbolName name
  verdicts : ∀ flag, Expr.verdictName flag ∈ V

namespace IsVocabulary

variable {V : List String} (hV : IsVocabulary V)

include hV

theorem writable {e : Expr} (h : e.names ⊆ V) : e.Writable :=
  (Expr.writable_iff_names e).2 fun name hn => hV.symbols name (h hn)

theorem isLine {name : String} (h : name ∈ V) : IsLine name :=
  .of_chars (hV.symbols name h).chars

theorem append_symbolNames (s : String) : IsVocabulary (V ++ Token.symbolNames s) where
  symbols name hn := by
    rcases List.mem_append.1 hn with old | new
    · exact hV.symbols name old
    · exact Token.isSymbolName_of_mem_symbolNames new
  verdicts flag := List.mem_append_left _ (hV.verdicts flag)

theorem isLine_of_render {env : Environment} (henv : env.vocabulary ⊆ V) {d : Nat} {e : Expr}
    {text : String} (he : e.names ⊆ V) (h : env.render d e = some text) : IsLine text := by
  induction d generalizing e text with
  | zero => simp [Environment.render] at h
  | succ d ih =>
      cases e with
      | number x =>
          obtain rfl : Numeral.plain x = text := by simpa [Environment.render] using h
          exact .of_chars (Numeral.isLiteralChar_plain x)
      | symbol name =>
          have known : IsLine name := hV.isLine (he (by simp))
          rw [Environment.render_symbol] at h
          split at h
          · obtain rfl := Option.some.inj h
            exact known
          · rename_i b hb
            split at h
            · obtain rfl := Option.some.inj h
              have before : IsLine "<func-object: " := by decide
              have after : IsLine ">" := by decide
              exact (before.append known).append after
            · have body := Environment.vocabulary_of_lookup hb henv
              exact ih (List.append_subset.1 body).2 h
      | list items =>
          rw [Environment.render_list, Option.map_eq_some_iff] at h
          obtain ⟨texts, each, rfl⟩ := h
          have opening : IsLine "(" := by decide
          have space : IsLine " " := by decide
          have closing : IsLine ")" := by decide
          refine (opening.append (isLine_intercalate space ?_)).append closing
          intro text ht
          obtain ⟨item, hi, rendered⟩ := exists_mem_of_mapM each text ht
          exact ih (Expr.names_list_subset_iff.1 he item hi) rendered

end IsVocabulary
end DynLisp
