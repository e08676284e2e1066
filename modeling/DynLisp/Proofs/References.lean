import Mathlib.Data.Fintype.Card
import Mathlib.Data.Set.Finite.List
import Mathlib.Logic.Relation
import DynLisp.Proofs.Frames
import DynLisp.Proofs.Names
import DynLisp.Proofs.Resolution

/-! # References among variables

A variable refers to the symbols in what it stands for.  Rendering follows these references, so it comes
to an end exactly if they lead into no cycle, and what it writes is the expression with all variables
replaced.

* `Environment.Refers` is the graph of the references, and `resolves_iff_acc` says that an expression
  resolves exactly if no references go on without end from its symbols.
* `acc_iff_no_cycle`: since an environment binds finitely many names, this means that no cycle is
  reached.
* `Environment.ResolvesTo` replaces variables by what they stand for, again and again until none is
  left.  A rendering is not changed by replacing (`render_expand`), and writes the source form of what
  is left in the end. -/

namespace DynLisp

/-! ### Endless references -/

section
variable {α : Type} {r : α → α → Prop}

theorem not_transGen_self_of_acc {a : α} (h : Acc (flip r) a) : ¬ Relation.TransGen r a a := by
  induction h with
  | intro a _ ih =>
      intro cycle
      obtain ⟨b, step, back⟩ := Relation.TransGen.head'_iff.1 cycle
      exact ih b step (.tail' back step)

theorem acc_of_reflTransGen {a b : α} (path : Relation.ReflTransGen r a b) (h : Acc (flip r) a) :
    Acc (flip r) b := by
  induction path with
  | refl => exact h
  | tail _ step ih => exact ih.inv step

/-- Where steps begin in finitely many places only, an endless path from `a` runs into a cycle. -/
theorem acc_iff_no_cycle {S : Set α} (finite : S.Finite) (sources : ∀ {x y}, r x y → x ∈ S) {a : α} :
    Acc (flip r) a ↔ ∀ x, Relation.ReflTransGen r a x → ¬ Relation.TransGen r x x := by
  refine ⟨fun h x path => not_transGen_self_of_acc (acc_of_reflTransGen path h), fun acyclic => ?_⟩
  -- the places that are reached and go on are finitely many, and to be reached is an order on them
  let T := {x : S // Relation.ReflTransGen r a x.1}
  have := finite.to_subtype
  let before (y x : T) : Prop := Relation.TransGen r x.1.1 y.1.1
  have : IsTrans T before := ⟨fun _ _ _ first second => second.trans first⟩
  have : Std.Irrefl before := ⟨fun x => acyclic x.1.1 x.2⟩
  have ordered : WellFounded before := Finite.wellFounded_of_trans_of_irrefl before
  have reached : ∀ x : T, Acc (flip r) x.1.1 := by
    intro x
    induction x using ordered.induction with
    | h x ih =>
        refine .intro _ fun y step => ?_
        by_cases goesOn : y ∈ S
        · exact ih ⟨⟨y, goesOn⟩, x.2.tail step⟩ (.single step)
        · exact .intro _ fun z further => absurd (sources further) goesOn
  by_cases goesOn : a ∈ S
  · exact reached ⟨⟨a, goesOn⟩, .refl⟩
  · exact .intro _ fun y step => absurd (sources step) goesOn

end

namespace Environment

variable {env : Environment} {name : String} {b : Binding} {e : Expr}

/-- The name is that of a variable, and the other one occurs in what it stands for. -/
def Refers (env : Environment) (name other : String) : Prop :=
  ∃ b, env.lookup name = some b ∧ b.isFunction = false ∧ other ∈ b.body.names

mutual

/-- An expression resolves if its symbols do. -/
theorem resolves_of_names : ∀ {e : Expr}, (∀ name ∈ e.names, env.Resolves (.symbol name)) →
    env.Resolves e
  | .number x, _ => .number x
  | .symbol name, h => h name (by simp)
  | .list items, h => .list (resolves_items_of_names fun item hi name hn =>
      h name (by rw [Expr.names_list]; exact List.mem_flatMap.2 ⟨item, hi, hn⟩))

theorem resolves_items_of_names : ∀ {items : List Expr},
    (∀ item ∈ items, ∀ name ∈ item.names, env.Resolves (.symbol name)) →
      ∀ item ∈ items, env.Resolves item
  | [], _ => by simp
  | first :: rest, h => by
      rw [List.forall_mem_cons] at h ⊢
      exact ⟨resolves_of_names h.1, resolves_items_of_names h.2⟩

end

theorem resolves_symbol_of_acc (h : Acc (flip env.Refers) name) : env.Resolves (.symbol name) := by
  induction h with
  | intro name _ ih =>
      cases found : env.lookup name with
      | none => exact .unbound found
      | some b =>
          cases function : b.isFunction with
          | true => exact .function found function
          | false =>
              refine .follow found (resolves_of_names fun other occurs => ?_)
              exact ih other ⟨b, found, function, occurs⟩

/-- An expression resolves exactly if the references of its symbols come to an end. -/
theorem resolves_iff_acc : env.Resolves e ↔ ∀ name ∈ e.names, Acc (flip env.Refers) name := by
  constructor
  · intro h
    induction h with
    | number x => simp
    | @unbound name unbound =>
        simp only [Expr.names_symbol, List.forall_mem_singleton]
        refine .intro _ fun other ⟨b, found, _⟩ => ?_
        rw [unbound] at found
        cases found
    | @function name b bound function =>
        simp only [Expr.names_symbol, List.forall_mem_singleton]
        refine .intro _ fun other ⟨b', found, plain, _⟩ => ?_
        obtain rfl := Option.some.inj (bound.symm.trans found)
        rw [function] at plain
        cases plain
    | @follow name b bound _ ih =>
        simp only [Expr.names_symbol, List.forall_mem_singleton]
        refine .intro _ fun other ⟨b', found, _, occurs⟩ => ?_
        obtain rfl := Option.some.inj (bound.symm.trans found)
        exact ih other occurs
    | list _ ih =>
        intro name occurs
        rw [Expr.names_list, List.mem_flatMap] at occurs
        obtain ⟨item, hi, hn⟩ := occurs
        exact ih item hi name hn
  · exact fun h => resolves_of_names fun name occurs => resolves_symbol_of_acc (h name occurs)

theorem finite_bound (env : Environment) : {name | env.contains name}.Finite := by
  refine (List.finite_toSet (env.frames.flatMap Frame.names)).subset fun name bound => ?_
  obtain ⟨f, hf, contained⟩ := List.any_eq_true.1 bound
  exact List.mem_flatMap.2 ⟨f, hf, (f.mem_names_iff name).2 contained⟩

/-- An expression resolves exactly if its symbols lead into no cycle of references. -/
theorem resolves_iff_no_cycle : env.Resolves e ↔ ∀ name ∈ e.names, ∀ other,
    Relation.ReflTransGen env.Refers name other → ¬ Relation.TransGen env.Refers other other := by
  rw [resolves_iff_acc]
  refine forall₂_congr fun name _ => acc_iff_no_cycle env.finite_bound ?_
  rintro x y ⟨b, found, -⟩
  show env.contains x
  rw [contains_eq_isSome_lookup, found]
  rfl

end Environment

/-! ### Variables replaced -/

namespace Expr

mutual

/-- The expression with an expression in place of each symbol. -/
def replace (f : String → Expr) : Expr → Expr
  | number x => number x
  | symbol name => f name
  | list items => list (replaceItems f items)

def replaceItems (f : String → Expr) : List Expr → List Expr
  | [] => []
  | item :: rest => item.replace f :: replaceItems f rest

end

variable {f : String → Expr}

@[simp] theorem replace_number (x : Float) : (number x).replace f = number x := by simp [replace]

@[simp] theorem replace_symbol (name : String) : (symbol name).replace f = f name := by
  simp [replace]

@[simp] theorem replace_list (items : List Expr) :
    (list items).replace f = list (items.map (replace f)) := by
  rw [replace]
  congr 1
  induction items with
  | nil => rfl
  | cons item rest ih => rw [replaceItems, ih, List.map_cons]

mutual

theorem replace_eq_self : ∀ {e : Expr}, (∀ name ∈ e.names, f name = symbol name) → e.replace f = e
  | number x, _ => replace_number x
  | symbol name, h => by rw [replace_symbol, h name (by simp)]
  | list items, h => by
      rw [replace_list, map_replace_eq_self fun item hi name hn =>
        h name (by rw [names_list]; exact List.mem_flatMap.2 ⟨item, hi, hn⟩)]

theorem map_replace_eq_self : ∀ {items : List Expr},
    (∀ item ∈ items, ∀ name ∈ item.names, f name = symbol name) → items.map (replace f) = items
  | [], _ => rfl
  | first :: rest, h => by
      rw [List.forall_mem_cons] at h
      rw [List.map_cons, replace_eq_self h.1, map_replace_eq_self h.2]

end

end Expr

namespace Environment

variable {env : Environment} {name : String} {b : Binding} {e : Expr}

/-- The name is bound without parameters. -/
def IsVariable (env : Environment) (name : String) : Prop :=
  ∃ b, env.lookup name = some b ∧ b.isFunction = false

/-- What a variable stands for; any other name stands for itself. -/
def meaning (env : Environment) (name : String) : Expr :=
  match env.lookup name with
  | none => .symbol name
  | some b => if b.isFunction then .symbol name else b.body

/-- What is written for a name that is no variable. -/
def sign (env : Environment) (name : String) : Expr :=
  match env.lookup name with
  | none => .symbol name
  | some _ => .symbol (functionSign name)

/-- The expression with each variable replaced by what it stands for, once. -/
def expand (env : Environment) (e : Expr) : Expr :=
  e.replace env.meaning

/-- No variable is left in the expression. -/
def Settled (env : Environment) (e : Expr) : Prop :=
  ∀ name ∈ e.names, ¬ env.IsVariable name

/-- Replacing variables again and again leads to an expression without variables, and this is it with a
sign in place of each function. -/
def ResolvesTo (env : Environment) (e result : Expr) : Prop :=
  ∃ n, env.Settled (env.expand^[n] e) ∧ result = (env.expand^[n] e).replace env.sign

theorem meaning_of_not_isVariable (h : ¬ env.IsVariable name) : env.meaning name = .symbol name := by
  unfold meaning
  cases found : env.lookup name with
  | none => rfl
  | some b =>
      cases function : b.isFunction with
      | true => simp [function]
      | false => exact absurd ⟨b, found, function⟩ h

theorem expand_of_settled (h : env.Settled e) : env.expand e = e :=
  Expr.replace_eq_self fun name occurs => meaning_of_not_isVariable (h name occurs)

/-- Once no variable is left nothing is replaced any more. -/
theorem iterate_expand_of_settled {n : Nat} (h : env.Settled (env.expand^[n] e)) :
    ∀ {k : Nat}, n ≤ k → env.expand^[k] e = env.expand^[n] e := by
  intro k le
  obtain ⟨more, rfl⟩ := Nat.exists_eq_add_of_le' le
  rw [Function.iterate_add_apply]
  exact Function.iterate_fixed (expand_of_settled h) more

theorem ResolvesTo.unique {x y : Expr} (hx : env.ResolvesTo e x) (hy : env.ResolvesTo e y) :
    x = y := by
  obtain ⟨n, settled, rfl⟩ := hx
  obtain ⟨k, settled', rfl⟩ := hy
  rw [← iterate_expand_of_settled settled (Nat.le_max_left n k),
    ← iterate_expand_of_settled settled' (Nat.le_max_right n k)]

theorem iterate_expand_list (n : Nat) (items : List Expr) :
    env.expand^[n] (.list items) = .list (items.map (env.expand^[n])) := by
  induction n generalizing items with
  | zero => simp
  | succ n ih =>
      rw [Function.iterate_succ_apply, expand, Expr.replace_list, ih, List.map_map]
      rfl

theorem settled_list {items : List Expr} :
    env.Settled (.list items) ↔ ∀ item ∈ items, env.Settled item := by
  simp only [Settled, Expr.names_list, List.mem_flatMap]
  constructor
  · intro h item hi name hn
    exact h name ⟨item, hi, hn⟩
  · rintro h name ⟨item, hi, hn⟩
    exact h item hi name hn

/-- Where each expression gets rid of its variables, all do after the same number of replacements. -/
theorem exists_settled_of_forall : ∀ {items : List Expr},
    (∀ item ∈ items, ∃ n, env.Settled (env.expand^[n] item)) →
      ∃ n, ∀ item ∈ items, env.Settled (env.expand^[n] item)
  | [], _ => ⟨0, by simp⟩
  | item :: items, h => by
      rw [List.forall_mem_cons] at h
      obtain ⟨n, first⟩ := h.1
      obtain ⟨k, others⟩ := exists_settled_of_forall h.2
      refine ⟨max n k, List.forall_mem_cons.2 ⟨?_, fun item hi => ?_⟩⟩
      · rw [iterate_expand_of_settled first (Nat.le_max_left n k)]
        exact first
      · rw [iterate_expand_of_settled (others item hi) (Nat.le_max_right n k)]
        exact others item hi

/-- An expression that resolves gets rid of its variables. -/
theorem exists_settled_of_resolves (h : env.Resolves e) : ∃ n, env.Settled (env.expand^[n] e) := by
  induction h with
  | number x => exact ⟨0, by simp [Settled]⟩
  | @unbound name unbound => exact ⟨0, by simp [Settled, IsVariable, unbound]⟩
  | @function name b bound function => exact ⟨0, by simp [Settled, IsVariable, bound, function]⟩
  | @follow name b bound _ ih =>
      cases function : b.isFunction with
      | true => exact ⟨0, by simp [Settled, IsVariable, bound, function]⟩
      | false =>
          obtain ⟨n, settled⟩ := ih
          have once : env.expand (.symbol name) = b.body := by simp [expand, meaning, bound, function]
          exact ⟨n + 1, by rwa [Function.iterate_succ_apply, once]⟩
  | list _ ih =>
      obtain ⟨n, settled⟩ := exists_settled_of_forall ih
      refine ⟨n, ?_⟩
      rw [iterate_expand_list, settled_list]
      exact List.forall_mem_map.2 settled

/-! ### Replacing and rendering -/

theorem mapM_of_forall {α β : Type} {f : α → Option β} {g : α → β} : ∀ {as : List α},
    (∀ a ∈ as, f a = some (g a)) → as.mapM f = some (as.map g)
  | [], _ => rfl
  | a :: as, h => by
      rw [List.forall_mem_cons] at h
      rw [List.mapM_cons, h.1, mapM_of_forall h.2]
      rfl

/-- Replacing variables once does not change what is rendered. -/
theorem render_expand : ∀ {d : Nat} {e : Expr} {text : String}, env.render d e = some text →
    env.render d (env.expand e) = some text
  | 0, _, _, h => by cases h
  | d + 1, .number x, _, h => h
  | d + 1, .symbol name, text, h => by
      rw [expand, Expr.replace_symbol, meaning]
      have looked := h
      rw [render_symbol] at looked
      cases found : env.lookup name with
      | none => exact h
      | some b =>
          cases function : b.isFunction with
          | true => simpa [function] using h
          | false =>
              simp only [found, function, Bool.false_eq_true, if_false] at looked ⊢
              exact env.render_of_le (Nat.le_succ d) looked
  | d + 1, .list items, _, h => by
      rw [expand, Expr.replace_list, render_list, Option.map_eq_some_iff] at *
      obtain ⟨texts, each, rfl⟩ := h
      refine ⟨texts, ?_, rfl⟩
      rw [List.mapM_map]
      exact mapM_of_some (fun e text => render_expand) each

theorem render_iterate_expand {d : Nat} {text : String} (h : env.render d e = some text) (n : Nat) :
    env.render d (env.expand^[n] e) = some text := by
  induction n with
  | zero => exact h
  | succ n ih =>
      rw [Function.iterate_succ_apply']
      exact render_expand ih

/-- An expression without variables is written with a sign in place of each function. -/
theorem render_of_settled : ∀ {d : Nat} {e : Expr}, env.Settled e → e.nesting < d →
    env.render d e = some (e.replace env.sign).source
  | d + 1, .number x, _, _ => by
      rw [Expr.replace_number, Expr.source]
      rfl
  | d + 1, .symbol name, settled, _ => by
      have fixed : ¬ env.IsVariable name := settled name (by simp)
      rw [render_symbol, Expr.replace_symbol, sign]
      cases found : env.lookup name with
      | none => simp [Expr.source]
      | some b =>
          cases function : b.isFunction with
          | true => simp [Expr.source, function]
          | false => exact absurd ⟨b, found, function⟩ fixed
  | d + 1, .list items, settled, room => by
      rw [Expr.nesting_list] at room
      rw [settled_list] at settled
      have each : ∀ item ∈ items, env.render d item = some (item.replace env.sign).source := by
        intro item hi
        have nested := Expr.nesting_le_nestingOfItems hi
        exact render_of_settled (settled item hi) (by omega)
      rw [render_list, mapM_of_forall each, Expr.replace_list, Expr.source_list, List.map_map]
      rfl

/-- Whatever is rendered is the source form of the resolved expression. -/
theorem exists_resolvesTo_of_render {d : Nat} {text : String} (h : env.render d e = some text) :
    ∃ result, env.ResolvesTo e result ∧ text = result.source := by
  have rendered : (env.render d e).isSome := by rw [h]; rfl
  obtain ⟨n, settled⟩ := exists_settled_of_resolves (resolves_of_render rendered)
  refine ⟨_, ⟨n, settled, rfl⟩, ?_⟩
  let enough := max d ((env.expand^[n] e).nesting + 1)
  have same := env.render_of_le (Nat.le_max_left d _ : d ≤ enough) (render_iterate_expand h n)
  rw [render_of_settled settled (Nat.le_max_right d _)] at same
  exact (Option.some.inj same).symm

theorem sign_of_unbound (h : env.lookup name = none) : env.sign name = .symbol name := by
  rw [sign, h]

/-- An expression without bound names is rendered as it is written. -/
theorem render_of_unbound (h : ∀ name ∈ e.names, env.lookup name = none) {d : Nat}
    (room : e.nesting < d) : env.render d e = some e.source := by
  have settled : env.Settled e := by
    rintro name occurs ⟨b, found, -⟩
    rw [h name occurs] at found
    cases found
  rw [render_of_settled settled room, Expr.replace_eq_self fun name occurs => sign_of_unbound (h name occurs)]

/-- **Rendering and references.**  With enough nested calls an expression is rendered exactly if its
symbols lead into no cycle of references among variables.  What is rendered then does not depend on
their number: it is the source form of the expression with all variables replaced by what they stand
for, until none is left, and all functions by their signs.  An expression without bound names is
rendered in its own source form. -/
theorem render_follows_references (env : Environment) (e : Expr) :
    ((∃ d, (env.render d e).isSome) ↔ ∀ name ∈ e.names, ∀ other,
      Relation.ReflTransGen env.Refers name other → ¬ Relation.TransGen env.Refers other other) ∧
    (∀ d text, env.render d e = some text → (∀ d', d ≤ d' → env.render d' e = some text) ∧
      ∃ result, (∀ other, env.ResolvesTo e other ↔ other = result) ∧ text = result.source) ∧
    ((∀ name ∈ e.names, env.lookup name = none) →
      ∀ d, e.nesting < d → env.render d e = some e.source) := by
  refine ⟨exists_render_iff.trans resolves_iff_no_cycle, fun d text rendered => ⟨?_, ?_⟩,
    fun unbound d room => render_of_unbound unbound room⟩
  · exact fun d' more => env.render_of_le more rendered
  · obtain ⟨result, resolved, written⟩ := exists_resolvesTo_of_render rendered
    exact ⟨result, fun other => ⟨fun h => h.unique resolved, fun h => h ▸ resolved⟩, written⟩

/-- A variable that stands for a list with another variable and a function in it, and a list without
bound names. -/
theorem render_of_nested_variables :
    let env : Environment := ⟨[⟨[("y", .ofValue (.symbol "z")), ("f", ⟨["p"], .symbol "p"⟩)]⟩,
      ⟨[("x", .ofValue (.list [.symbol "y", .symbol "f"])), ("y", .ofValue (.number 1))]⟩]⟩
    (env.render 5 (.list [.symbol "x"]) = some "((z <func-object: f>))" ∧
      (∀ d, 5 ≤ d → env.render d (.list [.symbol "x"]) = some "((z <func-object: f>))") ∧
      ∃ result, env.ResolvesTo (.list [.symbol "x"]) result ∧
        "((z <func-object: f>))" = result.source) ∧
    (∀ name ∈ (Expr.list [.symbol "z"]).names, env.lookup name = none) ∧
    Expr.nesting (.list [.symbol "z"]) < 2 ∧
    env.render 2 (.list [.symbol "z"]) = some (Expr.source (.list [.symbol "z"])) := by
  intro env
  have rendered : env.render 5 (.list [.symbol "x"]) = some "((z <func-object: f>))" := by
    decide +kernel
  have unbound : ∀ name ∈ (Expr.list [.symbol "z"]).names, env.lookup name = none := by
    intro name occurs
    obtain rfl : name = "z" := by simpa using occurs
    rfl
  have nested : Expr.nesting (.list [.symbol "z"]) < 2 := by decide
  obtain ⟨more, result, resolved, written⟩ := (render_follows_references env _).2.1 5 _ rendered
  exact ⟨⟨rendered, more, result, (resolved result).2 rfl, written⟩, unbound, nested,
    (render_follows_references env _).2.2 unbound 2 nested⟩

end Environment
end DynLisp
