import DynLisp.Proofs.FirstFailure
import DynLisp.Proofs.Parameters
import DynLisp.Proofs.Resolution
import DynLisp.Proofs.Sameness

/-! # Expressions without definitions

An expression without definitions leaves the environment as it is, so that its symbols stand for the
same all the time.  If what they stand for are data, there is nothing in it to be run, and evaluation
comes to an end, although branches are evaluated twice and variables at each use.

* `Environment.depth` is the measure: how deep evaluation goes, through the lists of an expression and
  from a symbol into what it stands for.
* `Eval.Confined` is what each rule keeps: the environment stays, and a computation that has room is not
  exhausted.  For this the values have to be as shallow as the measure says, because errors show them
  and comparisons go into them.
* `eval_fits` is the induction over evaluations: the measure is enough room. -/

namespace DynLisp

/-! ### Definitions -/

namespace Expr

/-- A list that begins with the name of an operator that binds: `let` or `fn`. -/
def isDefinition : Expr → Bool
  | list (symbol name :: _) =>
    name == Operator.defineVariable.name || name == Operator.defineFunction.name
  | _ => false

mutual

/-- The expression and all that is inside it. -/
def parts : Expr → List Expr
  | number x => [number x]
  | symbol name => [symbol name]
  | list items => list items :: partsOfItems items

def partsOfItems : List Expr → List Expr
  | [] => []
  | item :: rest => item.parts ++ partsOfItems rest

end

/-- No list in the expression is a definition. -/
def DefinitionFree (e : Expr) : Prop := ∀ part ∈ e.parts, part.isDefinition = false

instance (e : Expr) : Decidable e.DefinitionFree :=
  inferInstanceAs (Decidable (∀ part ∈ e.parts, part.isDefinition = false))

theorem forall_mem_partsOfItems {P : Expr → Prop} {items : List Expr} :
    (∀ part ∈ partsOfItems items, P part) ↔ ∀ item ∈ items, ∀ part ∈ item.parts, P part := by
  induction items with
  | nil => simp [partsOfItems]
  | cons item rest ih => rw [partsOfItems, List.forall_mem_append, List.forall_mem_cons, ih]

theorem definitionFree_list {items : List Expr} : (list items).DefinitionFree ↔
    (list items).isDefinition = false ∧ ∀ item ∈ items, item.DefinitionFree := by
  rw [DefinitionFree, parts, List.forall_mem_cons, forall_mem_partsOfItems]
  rfl

/-- Induction over an expression and the items of each list in it. -/
@[elab_as_elim]
theorem items_induction {P : Expr → Prop} (number : ∀ x, P (number x))
    (symbol : ∀ name, P (symbol name))
    (list : ∀ items, (∀ item ∈ items, P item) → P (list items)) (e : Expr) : P e := by
  have none : ∀ item ∈ ([] : List Expr), P item := by simp
  exact Expr.rec number symbol list none (fun _ _ first others => List.forall_mem_cons.2 ⟨first, others⟩) e

/-- Without symbols nothing is defined. -/
theorem definitionFree_of_names {e : Expr} (h : e.names = []) : e.DefinitionFree := by
  induction e using items_induction with
  | number x => simp [DefinitionFree, parts, isDefinition]
  | symbol name => simp at h
  | list items ih =>
      rw [names_list, List.flatMap_eq_nil_iff] at h
      refine definitionFree_list.2 ⟨?_, fun item hi => ih item hi (h item hi)⟩
      match items with
      | [] | .number _ :: _ | .list _ :: _ => rfl
      | .symbol name :: _ => simpa using h (.symbol name)

end Expr

/-! ### Environments of data -/

namespace Environment

/-- The bindings of all frames. -/
def bindings (env : Environment) : List Binding :=
  env.frames.flatMap fun f => f.entries.map (·.2)

/-- No function is bound, and no variable stands for anything with a symbol in it. -/
def HoldsData (env : Environment) : Prop :=
  ∀ b ∈ env.bindings, b.isFunction = false ∧ b.body.names = []

instance (env : Environment) : Decidable env.HoldsData :=
  inferInstanceAs (Decidable (∀ b ∈ env.bindings, b.isFunction = false ∧ b.body.names = []))

/-- The greatest number of lists inside one another in what is bound. -/
def nesting (env : Environment) : Nat :=
  Expr.nestingOfItems (env.bindings.map (·.body))

variable {env : Environment} {name : String} {b : Binding}

theorem mem_bindings_of_lookup (h : env.lookup name = some b) : b ∈ env.bindings := by
  obtain ⟨f, hf, found⟩ := List.exists_of_findSome?_eq_some h
  obtain ⟨before, after, split, -⟩ := List.lookup_eq_some_iff.1 found
  exact List.mem_flatMap.2 ⟨f, hf, List.mem_map.2 ⟨(name, b), by simp [split], rfl⟩⟩

theorem nesting_le_of_lookup (h : env.lookup name = some b) : b.body.nesting ≤ env.nesting :=
  Expr.nesting_le_nestingOfItems (List.mem_map_of_mem (mem_bindings_of_lookup h))

/-! ### The measure -/

mutual

/-- How deep evaluation goes into the expression: through the lists in it, and from a symbol into what
it stands for. -/
def depth (env : Environment) : Expr → Nat
  | .number _ => 0
  | .symbol name => (env.lookup name).elim 0 fun b => b.body.nesting + 1
  | .list items => env.depthOfItems items + 1

def depthOfItems (env : Environment) : List Expr → Nat
  | [] => 0
  | item :: rest => max (env.depth item) (env.depthOfItems rest)

end

theorem depthOfItems_le_iff {n : Nat} {items : List Expr} :
    env.depthOfItems items ≤ n ↔ ∀ item ∈ items, env.depth item ≤ n := by
  induction items with
  | nil => simp [depthOfItems]
  | cons item rest ih => rw [depthOfItems, Nat.max_le, ih, List.forall_mem_cons]

theorem depth_le_depthOfItems (env : Environment) {item : Expr} {items : List Expr} (h : item ∈ items) :
    env.depth item ≤ env.depthOfItems items :=
  depthOfItems_le_iff.1 (Nat.le_refl _) item h

theorem nesting_le_depth {e : Expr} : e.nesting ≤ env.depth e := by
  induction e using Expr.items_induction with
  | number x => simp
  | symbol name => simp
  | list items ih =>
      rw [Expr.nesting_list, depth, Nat.add_le_add_iff_right, Expr.nestingOfItems_le_iff]
      exact fun item hi => Nat.le_trans (ih item hi) (env.depth_le_depthOfItems hi)

/-- One step deeper than the lists of the expression and the lists of what is bound, taken together. -/
theorem depth_le (env : Environment) (e : Expr) : env.depth e ≤ e.nesting + env.nesting + 1 := by
  induction e using Expr.items_induction with
  | number x => simp [depth]
  | symbol name =>
      rw [depth]
      cases bound : env.lookup name with
      | none => simp
      | some b => simpa using nesting_le_of_lookup bound
  | list items ih =>
      have each : env.depthOfItems items ≤ Expr.nestingOfItems items + env.nesting + 1 := by
        refine depthOfItems_le_iff.2 fun item hi => Nat.le_trans (ih item hi) ?_
        have := Expr.nesting_le_nestingOfItems hi
        omega
      rw [depth, Expr.nesting_list]
      omega

/-- Without symbols there are only the lists of the expression. -/
theorem depth_of_names {e : Expr} (h : e.names = []) : env.depth e = e.nesting := by
  induction e using Expr.items_induction with
  | number x => simp [depth]
  | symbol name => simp at h
  | list items ih =>
      rw [Expr.names_list, List.flatMap_eq_nil_iff] at h
      refine Nat.le_antisymm ?_ nesting_le_depth
      rw [depth, Expr.nesting_list, Nat.add_le_add_iff_right, depthOfItems_le_iff]
      exact fun item hi => (ih item hi (h item hi)).trans_le (Expr.nesting_le_nestingOfItems hi)

/-- What a symbol stands for is less deep than the symbol. -/
theorem HoldsData.depth_body (data : env.HoldsData) (h : env.lookup name = some b) :
    env.depth b.body + 1 = env.depth (.symbol name) := by
  have plain := (data b (mem_bindings_of_lookup h)).2
  rw [depth_of_names plain, depth, h]
  rfl

/-- Rendering goes as deep as evaluation. -/
theorem HoldsData.isSome_render (data : env.HoldsData) : ∀ {d : Nat} {e : Expr},
    env.depth e < d → (env.render d e).isSome
  | 0, _, room => by cases room
  | d + 1, .number x, _ => rfl
  | d + 1, .symbol name, room => by
      rw [render_symbol]
      cases bound : env.lookup name with
      | none => rfl
      | some b =>
          have deeper := data.depth_body bound
          simp only [(data b (mem_bindings_of_lookup bound)).1, Bool.false_eq_true, if_false]
          exact data.isSome_render (by omega)
  | d + 1, .list items, room => by
      rw [depth] at room
      refine isSome_render_list_iff.2 fun item hi => data.isSome_render ?_
      have := env.depth_le_depthOfItems hi
      omega

end Environment

/-! ### Computations that stay in an environment -/

namespace Eval

variable {α β : Type} {env : Environment} {room : Prop} {Q : α → Prop} {P : β → Prop}

/-- In this environment the computation leaves it as it is, however it ends; a result has `Q`, and if
there is room, the computation is not exhausted. -/
structure Confined (env : Environment) (room : Prop) (Q : α → Prop) (x : Eval α) : Prop where
  preserves : x.Preserves (fun m => m.env = env) Q
  ends : room → ∀ m, m.env = env → ∀ m', x m ≠ .error .exhausted m'

theorem confined_pure {a : α} (h : Q a) : Confined env room Q (pure a) where
  preserves := preserves_pure h
  ends _ _ _ _ := nofun

theorem confined_environment : Confined env room (fun env' => env = env') environment where
  preserves _ hm := ⟨hm, hm.symm⟩
  ends _ _ _ _ := nofun

theorem confined_printLine (line : String) : Confined env room (fun _ => True) (printLine line) where
  preserves _ hm := ⟨hm, trivial⟩
  ends _ _ _ _ := nofun

theorem confined_ofOption {o : Option α} (h : room → o.isSome) :
    Confined env room (fun _ => True) (ofOption o) where
  preserves := preserves_ofOption fun _ _ => trivial
  ends enough m _ m' := by
    obtain ⟨a, rfl⟩ := Option.isSome_iff_exists.1 (h enough)
    exact nofun

/-- An error is no exhaustion if there is room for what its message shows. -/
theorem confined_fail {d : Nat} {cause : EvalError}
    (h : ∀ shown ∈ cause.shown?, room → shown.nesting < d) : Confined env room Q (fail d cause) where
  preserves := preserves_fail d cause Q
  ends enough m _ m' := by
    have shows : cause.failure d = .error cause := if_pos fun shown hs => h shown hs enough
    rw [fail_eq, shows]
    exact nofun

theorem confined_fail_plain (d : Nat) (cause : EvalError) (plain : cause.shown? = none) :
    Confined env room Q (fail d cause) :=
  confined_fail fun shown hs => by
    rw [plain] at hs
    cases hs

theorem Confined.bind {x : Eval α} {f : α → Eval β} (hx : Confined env room Q x)
    (hf : ∀ a, Q a → Confined env room P (f a)) : Confined env room P (x >>= f) where
  preserves := hx.preserves.bind fun a ha => (hf a ha).preserves
  ends enough m hm m' := by
    have kept := hx.preserves m hm
    cases first : x m with
    | ok a m₁ =>
        rw [first] at kept
        rw [bind_of_ok first]
        exact (hf a kept.2).ends enough m₁ kept.1 m'
    | error failure m₁ =>
        rw [bind_of_error first]
        rintro ⟨⟩
        exact hx.ends enough m hm m' first

theorem confined_mapM {f : α → Eval β} : ∀ {as : List α}, (∀ a ∈ as, Confined env room P (f a)) →
    Confined env room (fun bs => ∀ b ∈ bs, P b) (as.mapM f)
  | [], _ => confined_pure fun _ hb => by cases hb
  | a :: as, h => by
      rw [List.forall_mem_cons] at h
      rw [List.mapM_cons]
      refine h.1.bind fun b hb => (confined_mapM h.2).bind fun bs hbs => ?_
      exact confined_pure (List.forall_mem_cons.2 ⟨hb, hbs⟩)

theorem Confined.mono {room' : Prop} {Q' : α → Prop} {x : Eval α} (hx : Confined env room Q x)
    (less : room' → room) (more : ∀ a, Q a → Q' a) : Confined env room' Q' x where
  preserves := hx.preserves.mono more
  ends enough := hx.ends (less enough)

/-- Evaluations that stay in the environment, for which more than `n` nested evaluations are enough, and
whose value has at most `n` lists inside one another. -/
abbrev Fits (env : Environment) (n d : Nat) (x : Eval Outcome) : Prop :=
  Confined env (n < d) (fun outcome => outcome.nesting ≤ n) x

theorem Fits.mono {n n' d d' : Nat} {x : Eval Outcome} (h : Fits env n d x) (less : n' < d' → n < d)
    (more : n ≤ n') : Fits env n' d' x :=
  Confined.mono h less fun _ shallow => Nat.le_trans shallow more

end Eval

/-! ### Rules -/

namespace Rule

open Eval

variable {env : Environment} {n d : Nat} {ev : Evaluator} {operands : List Expr}

theorem fits_unit : Fits env n d (pure .unit) :=
  confined_pure (Nat.zero_le n)

theorem fits_verdictOf (flag : Bool) : Fits env n d (pure (verdictOf flag)) :=
  confined_pure (by simp)

/-- What a rule that compares does with the verdict. -/
theorem fits_compared {same : Option Bool} (h : n < d → same.isSome) (f : Bool → Bool) :
    Fits env n d (do return verdictOf (f (← ofOption same))) :=
  (confined_ofOption h).bind fun flag _ => fits_verdictOf (f flag)

theorem fits_disjunction : Fits env n d (disjunction d operands) := by
  cases operands with
  | nil => exact confined_fail_plain d (.operandCount .disjunction) rfl
  | cons first rest => exact fits_verdictOf _

section
variable (deep : ∀ e ∈ operands, env.depth e ≤ n)

include deep

theorem fits_conjunction : Fits env n d (conjunction d operands) := by
  cases operands with
  | nil => exact confined_fail_plain d (.operandCount .conjunction) rfl
  | cons first rest =>
      refine fits_compared (fun room => ?_) id
      have shallow := Nat.le_trans Environment.nesting_le_depth (deep first List.mem_cons_self)
      rw [Expr.allM_of_forall_some fun e _ => Expr.sameWithin_of_nesting (Nat.lt_of_le_of_lt shallow room)]
      rfl

theorem fits_print (data : env.HoldsData) : Fits env n d (print d operands) := by
  refine confined_environment.bind ?_
  rintro _ rfl
  have texts : n < d → (operands.mapM (env.render d)).isSome := fun room =>
    isSome_mapM_iff.2 fun e he => data.isSome_render (Nat.lt_of_le_of_lt (deep e he) room)
  exact (confined_ofOption texts).bind fun _ _ => (confined_printLine _).bind fun _ _ => fits_unit

end

theorem fits_opposite {operand : Expr} (shallow : operand.nesting ≤ n) :
    Fits env n d (opposite d operand) := by
  have refused : Fits env n d (fail d (.notAVerdict operand)) := by
    refine confined_fail fun shown hs room => ?_
    obtain rfl := Option.some.inj hs
    exact Nat.lt_of_le_of_lt shallow room
  cases operand with
  | number x => exact refused
  | symbol name =>
      simp only [opposite]
      split
      · exact fits_verdictOf false
      · split
        · exact fits_verdictOf true
        · exact refused
  | list items =>
      -- the items are compared as written, not the values they have
      refine fits_compared (fun room => ?_) id
      rw [Expr.nesting_list] at shallow
      have each : ∀ e ∈ items, e.nesting < d := fun e he => by
        have := Expr.nesting_le_nestingOfItems he
        omega
      rw [Expr.allSameWithin_of_nesting each]
      rfl

section
variable (hev : ∀ e ∈ operands, Fits env n d (ev e))

theorem confined_valueOf {e : Expr} (he : Fits env n d (ev e)) {noValue : EvalError}
    (shallow : ∀ shown ∈ noValue.shown?, shown.nesting ≤ n) :
    Confined env (n < d) (fun v => v.nesting ≤ n) (ev.valueOf d e noValue) := by
  refine Confined.bind he fun outcome bounded => ?_
  cases outcome with
  | value v => exact confined_pure bounded
  | unit => exact confined_fail fun shown hs => Nat.lt_of_le_of_lt (shallow shown hs)

theorem confined_operandNumber {operand : Expr} (he : Fits env n d (ev operand))
    (shallow : operand.nesting ≤ n) (op : Arithmetic) :
    Confined env (n < d) (fun _ => True) (operandNumber d ev op operand) := by
  refine (confined_valueOf he ?_).bind fun value bounded => ?_
  · rintro shown hs
    obtain rfl := Option.some.inj hs
    exact shallow
  · have refused : Confined env (n < d) (fun _ => True) (fail d (.notANumber op value) : Eval Float) := by
      refine confined_fail fun shown hs room => ?_
      obtain rfl := Option.some.inj hs
      exact Nat.lt_of_le_of_lt bounded room
    cases value with
    | number x => exact confined_pure trivial
    | symbol name | list items => exact refused

include hev

theorem fits_arithmetic (shallow : ∀ e ∈ operands, e.nesting ≤ n) (op : Arithmetic) :
    Fits env n d (arithmetic d ev op operands) := by
  cases operands with
  | nil => exact confined_fail_plain d (.operandCount (.arithmetic op)) rfl
  | cons first rest =>
      have each : ∀ e ∈ first :: rest,
          Confined env (n < d) (fun _ => True) (operandNumber d ev op e) :=
        fun e he => confined_operandNumber (hev e he) (shallow e he) op
      rw [List.forall_mem_cons] at each
      refine each.1.bind fun x _ => (confined_mapM each.2).bind fun xs _ => confined_pure ?_
      simp [Outcome.nesting]

theorem fits_comparison (op : Operator) (flip : Bool) : Fits env n d (comparison d ev op flip operands) := by
  cases operands with
  | nil => exact confined_fail_plain d (.operandCount op) rfl
  | cons first rest =>
      refine (confined_mapM fun e he => confined_valueOf (hev e he) ?_).bind fun values bounded => ?_
      · simp [EvalError.shown?]
      · refine fits_compared (fun room => ?_) (· != flip)
        rw [Expr.allSameWithin_of_nesting fun v hv => Nat.lt_of_le_of_lt (bounded v hv) room]
        rfl

theorem fits_negation (shallow : ∀ e ∈ operands, e.nesting ≤ n) : Fits env n d (negation d ev operands) := by
  unfold negation
  split
  · rename_i operand
    exact Confined.bind (hev operand (by simp)) fun _ _ => fits_opposite (shallow operand (by simp))
  · exact confined_fail_plain d _ rfl

/-- Both branches stay in the environment, and a value is that of the first one. -/
theorem fits_conditional : Fits env n d (conditional d ev operands) := by
  unfold conditional
  split
  · rename_i condition first second
    refine (confined_valueOf (hev condition (by simp)) ?_).bind fun value _ => ?_
    · simp [EvalError.shown?]
    · have chosen : Fits env n d (ev (if value.isEmptyList then second else first)) := by
        split <;> exact hev _ (by simp)
      exact Confined.bind chosen fun _ _ => hev first (by simp)
  · exact confined_fail_plain d _ rfl

theorem fits_operation (data : env.HoldsData) (deep : ∀ e ∈ operands, env.depth e ≤ n) {op : Operator}
    (binds : op ≠ .defineVariable ∧ op ≠ .defineFunction) : Fits env n d (op.run d ev operands) := by
  have shallow : ∀ e ∈ operands, e.nesting ≤ n :=
    fun e he => Nat.le_trans Environment.nesting_le_depth (deep e he)
  cases op with
  | arithmetic op => exact fits_arithmetic hev shallow op
  | equal => exact fits_comparison hev .equal false
  | notEqual => exact fits_comparison hev .notEqual true
  | negation => exact fits_negation hev shallow
  | conjunction => exact fits_conjunction deep
  | disjunction => exact fits_disjunction
  | defineFunction => exact absurd rfl binds.2
  | defineVariable => exact absurd rfl binds.1
  | print => exact fits_print deep data
  | conditional => exact fits_conditional hev

theorem fits_items : Fits env (n + 1) (d + 1) (items ev operands) := by
  have each : ∀ e ∈ operands, Confined env (n + 1 < d + 1) (fun o => o.nesting ≤ n) (ev e) :=
    fun e he => Confined.mono (hev e he) Nat.lt_of_succ_lt_succ fun _ => id
  refine (confined_mapM each).bind fun outcomes bounded => confined_pure ?_
  have items := Expr.nestingOfItems_le_iff.2 (nesting_values bounded)
  simpa [Outcome.nesting] using items

end

section
variable (data : env.HoldsData)
  (body : ∀ x b, env.lookup x = some b → Fits env (env.depth b.body) d (ev b.body))

include data body

/-- A name stands for itself or for data, and these are less deep than the name. -/
theorem fits_name (x : String) (args : List Expr) :
    Fits env (env.depth (.symbol x)) (d + 1) (name d ev x args) := by
  refine confined_environment.bind ?_
  rintro _ rfl
  cases bound : env.lookup x with
  | none => exact confined_pure (by simp [Outcome.nesting])
  | some b =>
      have deeper := data.depth_body bound
      simp only [(data b (Environment.mem_bindings_of_lookup bound)).1, Bool.false_eq_true, if_false]
      exact (body x b bound).mono (by omega) (by omega)

/-- A list that is no definition is an operation that binds nothing, a name with arguments that do not
matter, or a list of items. -/
theorem fits_list {items : List Expr} (other : (Expr.list items).isDefinition = false)
    (parts : ∀ item ∈ items, Fits env (env.depthOfItems items) d (ev item)) :
    Fits env (env.depth (.list items)) (d + 1) ((env.form (.list items)).run d ev) := by
  rw [Environment.depth]
  match items with
  | [] => exact confined_pure (by simp [Outcome.nesting, Expr.nestingOfItems])
  | .number x :: rest | .list es :: rest => exact fits_items parts
  | .symbol x :: rest =>
      simp only [Environment.form]
      split
      · rename_i op reserved
        obtain rfl := Operator.ofName?_eq_some_iff.1 reserved
        have binds : op ≠ .defineVariable ∧ op ≠ .defineFunction := by
          constructor <;> rintro rfl <;> cases other
        have ran := fits_operation (fun e he => parts e (List.mem_cons_of_mem _ he)) data
          (fun e he => env.depth_le_depthOfItems (List.mem_cons_of_mem _ he)) binds
        exact ran.mono (by omega) (by omega)
      · split
        · have inside : env.depth (.symbol x) ≤ env.depthOfItems (.symbol x :: rest) :=
            env.depth_le_depthOfItems List.mem_cons_self
          exact (fits_name data body x rest).mono (by omega) (by omega)
        · exact fits_items parts

end

end Rule

/-! ### Evaluation -/

/-- An expression without definitions is evaluated within its measure.  The induction is on the nested
evaluations that are allowed, because what a symbol stands for is no part of the expression. -/
theorem eval_fits {env : Environment} (data : env.HoldsData) : ∀ (d : Nat) {e : Expr}, e.DefinitionFree →
    Eval.Fits env (env.depth e) d (eval d e)
  | 0, _, _ => ⟨fun _ hm => hm, fun room => by cases room⟩
  | d + 1, e, free => by
      -- what a name stands for is no part of the expression, but without symbols nothing is defined in it
      have body : ∀ x b, env.lookup x = some b →
          Eval.Fits env (env.depth b.body) d (eval d b.body) := by
        intro x b bound
        have plain := (data b (Environment.mem_bindings_of_lookup bound)).2
        exact eval_fits data d (Expr.definitionFree_of_names plain)
      refine Eval.confined_environment.bind ?_
      rintro _ rfl
      cases e with
      | number x => exact Eval.confined_pure (by simp [Outcome.nesting])
      | symbol x => exact Rule.fits_name data body x []
      | list items =>
          obtain ⟨other, each⟩ := Expr.definitionFree_list.1 free
          refine Rule.fits_list data body other fun item hi => ?_
          have inside := env.depth_le_depthOfItems hi
          exact (eval_fits data d (each item hi)).mono (by omega) inside

section

variable {env : Environment} (data : env.HoldsData) {e : Expr} (free : e.DefinitionFree) {m : Machine}
  (here : m.env = env)

include data free here

theorem env_after_eval (d : Nat) : ((eval d e).after m).env = env :=
  (eval_fits data d free).preserves.after here

theorem eval_ne_exhausted {d : Nat} (enough : e.nesting + env.nesting + 2 ≤ d) (m' : Machine) :
    eval d e m ≠ .error .exhausted m' := by
  have measure := env.depth_le e
  exact (eval_fits data d free).ends (by omega) m here m'

end

theorem Session.result_evaluate_ne_exhausted {allowed : Allowance} {env : Environment} {e : Expr}
    (h : ∀ m', eval allowed.evaluations e (.start env) ≠ .error .exhausted m') :
    (evaluate allowed env e).result ≠ .error .exhausted := by
  unfold evaluate
  cases ended : eval allowed.evaluations e (.start env) with
  | ok outcome m' => cases outcome <;> exact nofun
  | error failure m' =>
      cases failure with
      | error cause => exact nofun
      | exhausted => exact absurd ended (h m')

/-- **Expressions without definitions.**  Where no function is bound and no variable stands for anything
with a symbol in it, an expression without definitions is evaluated to an end.  Two nested evaluations
more than there are lists inside one another in the expression and in what is bound are enough, and more
of them make no difference.  However many there are, every frame is left as it is. -/
theorem eval_definitionFree {env : Environment} (data : env.HoldsData) {e : Expr}
    (free : e.DefinitionFree) :
    (∀ (d : Nat) (m : Machine), m.env = env → ((eval d e).after m).env = env) ∧
    (∀ (d : Nat) (m : Machine), m.env = env → e.nesting + env.nesting + 2 ≤ d →
      (∀ m', eval d e m ≠ .error .exhausted m') ∧
        eval d e m = eval (e.nesting + env.nesting + 2) e m) ∧
    (∀ allowed : Session.Allowance, (Session.evaluate allowed env e).env = env) ∧
    (∀ allowed : Session.Allowance, e.nesting + env.nesting + 2 ≤ allowed.evaluations →
      (Session.evaluate allowed env e).result ≠ .error .exhausted) := by
  refine ⟨fun d m here => env_after_eval data free here d, fun d m here enough =>
    ⟨eval_ne_exhausted data free here enough, ?_⟩, fun allowed => ?_, fun allowed room => ?_⟩
  · refine (eval_of_le enough e m).resolve_right ?_
    rintro ⟨m', exhausted, -⟩
    exact eval_ne_exhausted data free here (Nat.le_refl _) m' exhausted
  · rw [Session.env_evaluate]
    exact env_after_eval data free rfl _
  · exact Session.result_evaluate_ne_exhausted (eval_ne_exhausted data free rfl room)

/-- `(if (= x 1) (print x (+ x 1) True) (y x))` where the verdicts are bound as in the beginning, `x` stands
for a number and `y` for a list in a list. -/
theorem eval_definitionFree_of_data :
    let env : Environment := Environment.default.push
      ⟨[("x", .ofValue (.number 1)), ("y", .ofValue (.list [.list []]))]⟩
    let e : Expr := .conditional (.operation .equal [.symbol "x", .number 1])
      (.operation .print [.symbol "x", .operation (.arithmetic .sum) [.symbol "x", .number 1],
        .verdict true]) (.list [.symbol "y", .symbol "x"])
    let enough : Session.Allowance := ⟨3, 7⟩
    let tooFew : Session.Allowance := ⟨3, 1⟩
    Environment.default.HoldsData ∧ env.HoldsData ∧ e.DefinitionFree ∧ e.nesting = 3 ∧ env.nesting = 2 ∧
    (Session.evaluate enough env e).result ≠ .error .exhausted ∧
    (Session.evaluate enough env e).env = env ∧ (Session.evaluate tooFew env e).env = env := by
  intro env e enough tooFew
  have data : env.HoldsData := by decide +kernel
  have free : e.DefinitionFree := by decide +kernel
  have nesting : e.nesting = 3 := by decide +kernel
  have bound : env.nesting = 2 := by decide +kernel
  obtain ⟨-, -, stays, ends⟩ := eval_definitionFree data free
  refine ⟨by decide +kernel, data, free, nesting, bound, ends enough ?_, stays enough, stays tooFew⟩
  rw [nesting, bound]

end DynLisp
