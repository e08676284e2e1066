import Mathlib.Data.List.Forall2
import DynLisp.Machine

/-! # Names that correspond

Two evaluations run side by side, with other names.  A `Correspondence` says which names of the first
stand for which of the second, one for one; reserved names and verdicts stand for themselves.  Some
names may be *set aside*: they may be bound, but no expression holds them, and how they are bound need
not correspond.

`Expr.Alike`, `Binding.Alike`, `Frame.Alike` and `Environment.Alike` extend the correspondence to
expressions and to what is bound.  Of a frame, only the bindings that are not set aside are compared.
Expressions and environments that are alike are compared, written, looked up in and rendered alike. -/

namespace DynLisp

section

variable {α β α' β' : Type} {R : α → β → Prop} {S : α' → β' → Prop}

theorem allM_of_forall₂ {p : α → Option Bool} {q : β → Option Bool}
    (h : ∀ a b, R a b → p a = q b) {as : List α} {bs : List β} (each : List.Forall₂ R as bs) :
    as.allM p = bs.allM q := by
  induction each with
  | nil => rfl
  | cons first rest ih => simp only [List.allM, h _ _ first, ih]

theorem eq_of_forall₂ {R : α → α → Prop} (h : ∀ a b, R a b → a = b) {as bs : List α}
    (each : List.Forall₂ R as bs) : as = bs := by
  rw [← List.forall₂_eq_eq_eq]
  exact each.imp fun a b => h a b

/-- Options that are related are both empty, or hold what is related. -/
theorem rel_cases {o : Option α} {o' : Option β} (h : Option.Rel R o o') :
    (o = none ∧ o' = none) ∨ ∃ a b, o = some a ∧ o' = some b ∧ R a b := by
  cases h with
  | none => exact .inl ⟨rfl, rfl⟩
  | some h => exact .inr ⟨_, _, rfl, rfl, h⟩

theorem mapM_of_forall₂ {f : α → Option α'} {g : β → Option β'}
    (h : ∀ a b, R a b → Option.Rel S (f a) (g b)) {as : List α} {bs : List β}
    (each : List.Forall₂ R as bs) : Option.Rel (List.Forall₂ S) (as.mapM f) (bs.mapM g) := by
  induction each with
  | nil => exact .some .nil
  | @cons a b as bs first rest ih =>
      rw [List.mapM_cons, List.mapM_cons]
      rcases rel_cases (h a b first) with ⟨none, none'⟩ | ⟨c, c', some, some', head⟩
      · rw [none, none']
        exact .none
      rw [some, some']
      rcases rel_cases ih with ⟨none, none'⟩ | ⟨cs, cs', some, some', others⟩
      · rw [none, none']
        exact .none
      · rw [some, some']
        exact .some (.cons head others)

theorem forall₂_zip_zip {as : List α} {bs : List β} {as' : List α'} {bs' : List β'}
    (h : List.Forall₂ R as bs) (h' : List.Forall₂ S as' bs') :
    List.Forall₂ (fun p q => R p.1 q.1 ∧ S p.2 q.2) (as.zip as') (bs.zip bs') := by
  induction h generalizing as' bs' with
  | nil => exact .nil
  | cons first rest ih =>
      cases h' with
      | nil => exact .nil
      | cons first' rest' => exact .cons ⟨first, first'⟩ (ih rest')

end

/-- Names that stand for one another, and names that are set aside. -/
structure Correspondence where
  Pairs : String → String → Prop
  aside : String → Bool
  one_to_one : ∀ {s t s' t'}, Pairs s t → Pairs s' t' → (s = s' ↔ t = t')
  reserved : ∀ {s t}, Pairs s t → Operator.ofName? s = Operator.ofName? t
  verdict : ∀ flag, Pairs (Expr.verdictName flag) (Expr.verdictName flag)
  kept : ∀ {s t}, Pairs s t → aside s = false ∧ aside t = false

namespace Correspondence

/-- Names that stand for one another are the same. -/
def Exact (c : Correspondence) : Prop := ∀ {s t}, c.Pairs s t → s = t

/-- Names that may be bound at the same place. -/
def Places (c : Correspondence) (s t : String) : Prop :=
  c.Pairs s t ∨ c.aside s ∧ c.aside t

/-- Texts are the same if the names are. -/
def Texts (c : Correspondence) (s t : String) : Prop := c.Exact → s = t

theorem Exact.texts_eq {c : Correspondence} (hc : c.Exact) {texts texts' : List String}
    (h : List.Forall₂ c.Texts texts texts') : texts = texts' :=
  eq_of_forall₂ (fun _ _ same => same hc) h

end Correspondence

/-! ### Expressions -/

/-- The same expression but for names that stand for one another. -/
inductive Expr.Alike (c : Correspondence) : Expr → Expr → Prop
  | number (x : Float) : Alike c (.number x) (.number x)
  | symbol {s t : String} : c.Pairs s t → Alike c (.symbol s) (.symbol t)
  | list {es es' : List Expr} : List.Forall₂ (Alike c) es es' → Alike c (.list es) (.list es')

namespace Expr

variable {c : Correspondence}

mutual

/-- The induction principle for expressions that are alike. -/
theorem Alike.induct {motive : Expr → Expr → Prop} (number : ∀ x, motive (.number x) (.number x))
    (symbol : ∀ {s t}, c.Pairs s t → motive (.symbol s) (.symbol t))
    (list : ∀ {es es'}, List.Forall₂ motive es es' → motive (.list es) (.list es')) :
    ∀ {e e' : Expr}, e.Alike c e' → motive e e'
  | .number _, _, h => by
      cases h
      exact number _
  | .symbol _, _, h => by
      cases h with
      | symbol pair => exact symbol pair
  | .list es, _, h => by
      cases h with
      | list items => exact list (Alike.inductItems number symbol list es items)

theorem Alike.inductItems {motive : Expr → Expr → Prop} (number : ∀ x, motive (.number x) (.number x))
    (symbol : ∀ {s t}, c.Pairs s t → motive (.symbol s) (.symbol t))
    (list : ∀ {es es'}, List.Forall₂ motive es es' → motive (.list es) (.list es')) :
    ∀ (es : List Expr) {es' : List Expr}, List.Forall₂ (Alike c) es es' → List.Forall₂ motive es es'
  | [], _, h => by
      cases h
      exact .nil
  | e :: es, _, h => by
      cases h with
      | cons first rest =>
          exact .cons (Alike.induct number symbol list first) (inductItems number symbol list es rest)

end

theorem Alike.eq_of_exact (hc : c.Exact) {e e' : Expr} (h : e.Alike c e') : e = e' := by
  refine Alike.induct (motive := fun e e' => e = e') ?_ ?_ ?_ h
  · exact fun x => rfl
  · exact fun pair => by rw [hc pair]
  · intro es es' items
    rw [List.forall₂_eq_eq_eq] at items
    rw [items]

theorem Alike.nesting_eq {e e' : Expr} (h : e.Alike c e') : e.nesting = e'.nesting := by
  refine Alike.induct (motive := fun e e' => e.nesting = e'.nesting) ?_ ?_ ?_ h
  · exact fun x => rfl
  · exact fun pair => by simp
  · intro es es' items
    rw [nesting_list, nesting_list]
    congr 1
    induction items with
    | nil => rfl
    | cons first rest ih => simp only [nestingOfItems, first, ih]

theorem Alike.isEmptyList_eq {e e' : Expr} (h : e.Alike c e') : e.isEmptyList = e'.isEmptyList := by
  cases h with
  | list items => cases items <;> rfl
  | _ => rfl

/-! ### Comparing and writing -/

theorem Alike.sameWithin_eq {d : Nat} {a a' b b' : Expr} (ha : a.Alike c a') (hb : b.Alike c b') :
    sameWithin d a b = sameWithin d a' b' := by
  induction d generalizing a a' b b' with
  | zero => rfl
  | succ d ih =>
      cases ha with
      | number x => cases hb <;> simp only [sameWithin, same]
      | symbol pair =>
          cases hb with
          | symbol pair' =>
              simp only [sameWithin, same, Option.some.injEq]
              rw [Bool.eq_iff_iff, beq_iff_eq, beq_iff_eq]
              exact c.one_to_one pair pair'
          | _ => simp only [sameWithin, same]
      | list xs =>
          cases hb with
          | list ys =>
              simp only [sameWithin, xs.length_eq, ys.length_eq]
              split
              · exact allM_of_forall₂ (fun _ _ pair => ih pair.1 pair.2) (forall₂_zip_zip xs ys)
              · rfl
          | _ => simp only [sameWithin, same]

theorem allSameWithin_of_alike {d : Nat} {es es' : List Expr} (h : List.Forall₂ (Alike c) es es') :
    allSameWithin d es = allSameWithin d es' := by
  cases h with
  | nil => rfl
  | cons first rest => exact allM_of_forall₂ (fun _ _ item => first.sameWithin_eq item) rest

theorem Alike.sourceWithin {d : Nat} {e e' : Expr} (h : e.Alike c e') :
    Option.Rel c.Texts (e.sourceWithin d) (e'.sourceWithin d) := by
  unfold Expr.sourceWithin
  rw [h.nesting_eq]
  split
  · exact .some fun exact => by rw [h.eq_of_exact exact]
  · exact .none

end Expr

/-! ### Bindings and frames -/

/-- Alike in the places of the parameters and in the body. -/
structure Binding.Alike (c : Correspondence) (b b' : Binding) : Prop where
  params : List.Forall₂ c.Places b.params b'.params
  body : b.body.Alike c b'.body

/-- The same name, bound alike. -/
structure EntryAlike (c : Correspondence) (entry entry' : String × Binding) : Prop where
  name : c.Pairs entry.1 entry'.1
  binding : entry.2.Alike c entry'.2

namespace Frame

/-- The bindings that are compared. -/
def kept (c : Correspondence) (f : Frame) : List (String × Binding) :=
  f.entries.filter fun entry => !c.aside entry.1

/-- The bindings that are set aside. -/
def setAside (c : Correspondence) (f : Frame) : List (String × Binding) :=
  f.entries.filter fun entry => c.aside entry.1

/-- Alike in the bindings that are compared. -/
def Alike (c : Correspondence) (f f' : Frame) : Prop :=
  List.Forall₂ (EntryAlike c) (f.kept c) (f'.kept c)

theorem filter_bindEntry (p : String → Bool) (name : String) (b : Binding)
    (entries : List (String × Binding)) :
    (bindEntry name b entries).filter (fun entry => p entry.1) =
      if p name then bindEntry name b (entries.filter fun entry => p entry.1)
      else entries.filter fun entry => p entry.1 := by
  induction entries with
  | nil => cases h : p name <;> simp [bindEntry, h]
  | cons entry rest ih =>
      by_cases hn : entry.1 = name
      · subst hn
        cases h : p entry.1 <;> simp [bindEntry, h]
      · cases h : p entry.1 <;> cases hp : p name <;> simp_all [bindEntry]

theorem lookup_filter {p : String → Bool} {name : String} (h : p name)
    (entries : List (String × Binding)) :
    (entries.filter fun entry => p entry.1).lookup name = entries.lookup name := by
  induction entries with
  | nil => rfl
  | cons entry rest ih =>
      obtain ⟨key, b⟩ := entry
      by_cases hk : name = key
      · subst hk
        simp [h]
      · have other : (name == key) = false := beq_eq_false_iff_ne.2 hk
        cases hp : p key <;> simp [hp, List.lookup_cons, other, ih]

variable {c : Correspondence}

theorem lookup_alike {s t : String} (pair : c.Pairs s t) {entries entries' : List (String × Binding)}
    (h : List.Forall₂ (EntryAlike c) entries entries') :
    Option.Rel (Binding.Alike c) (entries.lookup s) (entries'.lookup t) := by
  induction h with
  | nil => exact .none
  | @cons entry entry' rest rest' first _ ih =>
      obtain ⟨key, b⟩ := entry
      obtain ⟨key', b'⟩ := entry'
      have same := c.one_to_one pair first.name
      by_cases hk : s = key
      · obtain rfl := hk
        obtain rfl := same.1 rfl
        simpa using Option.Rel.some first.binding
      · have other : (s == key) = false := beq_eq_false_iff_ne.2 hk
        have other' : (t == key') = false := beq_eq_false_iff_ne.2 fun h => hk (same.2 h)
        simpa only [List.lookup_cons, other, other'] using ih

theorem bindEntry_alike {s t : String} (pair : c.Pairs s t) {b b' : Binding} (hb : b.Alike c b')
    {entries entries' : List (String × Binding)} (h : List.Forall₂ (EntryAlike c) entries entries') :
    List.Forall₂ (EntryAlike c) (bindEntry s b entries) (bindEntry t b' entries') := by
  induction h with
  | nil => exact .cons ⟨pair, hb⟩ .nil
  | @cons entry entry' rest rest' first others ih =>
      have same := c.one_to_one first.name pair
      by_cases hk : entry.1 = s
      · rw [bindEntry, bindEntry, if_pos hk, if_pos (same.1 hk)]
        exact .cons ⟨pair, hb⟩ others
      · rw [bindEntry, bindEntry, if_neg hk, if_neg fun h => hk (same.2 h)]
        exact .cons first ih

theorem find?_alike {s t : String} (pair : c.Pairs s t) {f f' : Frame} (h : f.Alike c f') :
    Option.Rel (Binding.Alike c) (f.find? s) (f'.find? t) := by
  obtain ⟨left, right⟩ := c.kept pair
  have found := lookup_alike pair h
  rwa [kept, kept, lookup_filter (p := fun name => !c.aside name) (by simp [left]),
    lookup_filter (p := fun name => !c.aside name) (by simp [right])] at found

/-- In frames that are alike, binding names at the same place leaves them alike. -/
theorem Alike.bind {s t : String} (place : c.Places s t) {b b' : Binding} (hb : b.Alike c b')
    {f f' : Frame} (h : f.Alike c f') : (f.bind s b).Alike c (f'.bind t b') := by
  unfold Alike kept at h ⊢
  unfold Frame.bind
  rw [filter_bindEntry fun name => !c.aside name, filter_bindEntry fun name => !c.aside name]
  rcases place with pair | ⟨left, right⟩
  · obtain ⟨left, right⟩ := c.kept pair
    simpa [left, right] using bindEntry_alike pair hb h
  · simpa [left, right] using h

theorem setAside_bind {name : String} (h : c.aside name = false) (f : Frame) (b : Binding) :
    (f.bind name b).setAside c = f.setAside c := by
  unfold setAside Frame.bind
  rw [filter_bindEntry c.aside, h]
  rfl

theorem ofValues_alike {params params' : List String} (hp : List.Forall₂ c.Places params params')
    {values values' : List Expr} (hv : List.Forall₂ (Expr.Alike c) values values') :
    (ofValues (params.zip values)).Alike c (ofValues (params'.zip values')) := by
  have fold : ∀ {pairs pairs' : List (String × Expr)} {f f' : Frame}, f.Alike c f' →
      List.Forall₂ (fun p q => c.Places p.1 q.1 ∧ p.2.Alike c q.2) pairs pairs' →
        (pairs.foldl (fun f pair => f.bind pair.1 (.ofValue pair.2)) f).Alike c
          (pairs'.foldl (fun f pair => f.bind pair.1 (.ofValue pair.2)) f') := by
    intro pairs pairs' f f' hf each
    induction each generalizing f f' with
    | nil => exact hf
    | cons first rest ih => exact ih (hf.bind first.1 ⟨.nil, first.2⟩)
  exact fold .nil (forall₂_zip_zip hp hv)

end Frame

theorem Binding.Alike.isFunction_eq {c : Correspondence} {b b' : Binding} (h : b.Alike c b') :
    b.isFunction = b'.isFunction := by
  obtain ⟨params, body⟩ := b
  obtain ⟨params', body'⟩ := b'
  have places : List.Forall₂ c.Places params params' := h.params
  cases places <;> rfl

/-! ### Environments -/

namespace Environment

/-- Alike frame by frame. -/
def Alike (c : Correspondence) (env env' : Environment) : Prop :=
  List.Forall₂ (Frame.Alike c) env.frames env'.frames

/-- The bindings that are set aside, frame by frame. -/
def setAside (c : Correspondence) (env : Environment) : List (List (String × Binding)) :=
  env.frames.map (Frame.setAside c)

variable {c : Correspondence} {env env' : Environment}

theorem setAside_push (env : Environment) (f : Frame) :
    (env.push f).setAside c = f.setAside c :: env.setAside c := rfl

theorem setAside_dropInnermost (env : Environment) :
    env.dropInnermost.setAside c = (env.setAside c).tail :=
  List.map_tail

theorem lookup_alike (h : env.Alike c env') {s t : String} (pair : c.Pairs s t) :
    Option.Rel (Binding.Alike c) (env.lookup s) (env'.lookup t) := by
  obtain ⟨frames⟩ := env
  obtain ⟨frames'⟩ := env'
  have each : List.Forall₂ (Frame.Alike c) frames frames' := h
  simp only [lookup]
  induction each with
  | nil => exact .none
  | @cons f f' rest rest' first others ih =>
      rw [List.findSome?_cons, List.findSome?_cons]
      rcases rel_cases (Frame.find?_alike pair first) with
        ⟨unbound, unbound'⟩ | ⟨b, b', bound, bound', alike⟩
      · rw [unbound, unbound']
        exact ih others
      · rw [bound, bound']
        exact .some alike

theorem contains_eq_of_alike (h : env.Alike c env') {s t : String} (pair : c.Pairs s t) :
    env.contains s = env'.contains t := by
  rw [contains_eq_isSome_lookup, contains_eq_isSome_lookup]
  rcases rel_cases (lookup_alike h pair) with ⟨unbound, unbound'⟩ | ⟨_, _, bound, bound', -⟩
  · rw [unbound, unbound']
  · rw [bound, bound']
    rfl

theorem Alike.push (h : env.Alike c env') {f f' : Frame} (hf : f.Alike c f') :
    (env.push f).Alike c (env'.push f') :=
  .cons hf h

theorem Alike.dropInnermost (h : env.Alike c env') :
    env.dropInnermost.Alike c env'.dropInnermost := by
  obtain ⟨frames⟩ := env
  obtain ⟨frames'⟩ := env'
  have each : List.Forall₂ (Frame.Alike c) frames frames' := h
  cases each with
  | nil => exact .nil
  | cons first rest => exact rest

/-- Binding names that stand for one another: both environments have no frame, or both stay alike and
keep what is set aside. -/
theorem bind_alike (h : env.Alike c env') {s t : String} (pair : c.Pairs s t) {b b' : Binding}
    (hb : b.Alike c b') :
    (∃ cause, env.bind s b = .error cause ∧ env'.bind t b' = .error cause) ∨
    ∃ after after', env.bind s b = .ok after ∧ env'.bind t b' = .ok after' ∧
      after.Alike c after' ∧ after.setAside c = env.setAside c ∧
        after'.setAside c = env'.setAside c := by
  obtain ⟨left, right⟩ := c.kept pair
  obtain ⟨frames⟩ := env
  obtain ⟨frames'⟩ := env'
  have each : List.Forall₂ (Frame.Alike c) frames frames' := h
  cases each with
  | nil => exact .inl ⟨_, rfl, rfl⟩
  | @cons f f' rest rest' first others =>
      refine .inr ⟨_, _, rfl, rfl, .cons (first.bind (.inl pair) hb) others, ?_, ?_⟩
      · simp [setAside, Frame.setAside_bind left]
      · simp [setAside, Frame.setAside_bind right]

theorem render_alike (h : env.Alike c env') {d : Nat} {e e' : Expr} (he : e.Alike c e') :
    Option.Rel c.Texts (env.render d e) (env'.render d e') := by
  induction d generalizing e e' with
  | zero => exact .none
  | succ d ih =>
      cases he with
      | number x => exact .some fun _ => rfl
      | @symbol s t pair =>
          rw [render_symbol, render_symbol]
          rcases rel_cases (lookup_alike h pair) with
            ⟨unbound, unbound'⟩ | ⟨b, b', bound, bound', alike⟩
          · rw [unbound, unbound']
            exact .some fun exact => exact pair
          · simp only [bound, bound', alike.isFunction_eq]
            split
            · exact .some fun exact => by rw [exact pair]
            · exact ih alike.body
      | list items =>
          rw [render_list, render_list]
          rcases rel_cases (mapM_of_forall₂ (fun _ _ item => ih item) items) with
            ⟨endless, endless'⟩ | ⟨texts, texts', rendered, rendered', each⟩
          · rw [endless, endless']
            exact .none
          · rw [rendered, rendered']
            exact .some fun exact => by rw [exact.texts_eq each]

end Environment

end DynLisp
