import DynLisp.Proofs.Frames
import DynLisp.Proofs.Inert

/-! # Functions that give one of their arguments

A function whose body is a parameter evaluates the value of the argument once more, in the frame of
the call.

* `Frame.find?_ofValues`: there each parameter stands for the value of its argument.
* `eval_shallow`: a value has no more lists inside one another than its evaluation was allowed nested
  evaluations, so that evaluating it again asks for little more.
* `eval_call_parameter`: the call ends as the evaluation of the value does, and with the value if it is
  inert there.
* `call_parameter_gives_another_value`: other values need not come back. -/

namespace DynLisp

/-! ### The frame of a call -/

theorem Frame.find?_foldl_bind (name : String) : ∀ (pairs : List (String × Expr)) (f : Frame),
    name ∉ pairs.map (·.1) →
      (pairs.foldl (fun f pair => f.bind pair.1 (.ofValue pair.2)) f).find? name = f.find? name
  | [], _, _ => rfl
  | pair :: pairs, f, h => by
      simp only [List.map_cons, List.mem_cons, not_or] at h
      rw [List.foldl_cons, find?_foldl_bind name pairs _ h.2, find?_bind, if_neg h.1]

/-- Among different names, each stands for its own value. -/
theorem Frame.find?_ofValues {pairs : List (String × Expr)} (distinct : (pairs.map (·.1)).Nodup)
    {name : String} {value : Expr} (h : (name, value) ∈ pairs) :
    (ofValues pairs).find? name = some (.ofValue value) := by
  obtain ⟨before, further, rfl⟩ := List.append_of_mem h
  rw [List.map_append, List.map_cons, List.nodup_append, List.nodup_cons] at distinct
  rw [ofValues, List.foldl_append, List.foldl_cons, find?_foldl_bind _ _ _ distinct.2.1.1, find?_bind,
    if_pos rfl]

theorem Environment.lookup_parameter (env : Environment) {params : List String} {vs : List Expr}
    (distinct : params.Nodup) (count : params.length = vs.length) {i : Nat} {p : String} {v : Expr}
    (parameter : params[i]? = some p) (value : vs[i]? = some v) :
    (env.push (.ofValues (params.zip vs))).lookup p = some (.ofValue v) := by
  have paired : (p, v) ∈ params.zip vs :=
    List.mem_of_getElem? (List.getElem?_zip_eq_some.2 ⟨parameter, value⟩)
  have names : (params.zip vs).map (·.1) = params := List.map_fst_zip (Nat.le_of_eq count)
  rw [lookup_push, Frame.find?_ofValues (names.symm ▸ distinct) paired]
  rfl

/-! ### The nesting of values -/

/-- The number of lists inside one another in a value. -/
def Outcome.nesting : Outcome → Nat
  | value e => e.nesting
  | unit => 0

/-- Computations whose value, if they have one, has at most so many lists inside one another. -/
abbrev Shallow (n : Nat) (x : Eval Outcome) : Prop :=
  x.Preserves (fun _ => True) fun outcome => outcome.nesting ≤ n

@[simp] theorem Outcome.nesting_verdictOf (flag : Bool) : (Rule.verdictOf flag).nesting = 0 := by
  simp [Rule.verdictOf, Outcome.nesting, Expr.verdict]

theorem GivesVerdict.shallow {x : Eval Outcome} (h : GivesVerdict x) (n : Nat) : Shallow n x := by
  refine Eval.Preserves.mono h ?_
  rintro _ ⟨flag, rfl⟩
  simp

theorem Rule.nesting_values {n : Nat} : ∀ {outcomes : List Outcome},
    (∀ outcome ∈ outcomes, outcome.nesting ≤ n) → ∀ v ∈ values outcomes, v.nesting ≤ n
  | [], _, v, hv => by cases hv
  | .unit :: rest, h, v, hv => nesting_values (fun o ho => h o (List.mem_cons_of_mem _ ho)) v hv
  | .value e :: rest, h, v, hv => by
      rcases List.mem_cons.1 hv with rfl | hv
      · exact h (.value v) List.mem_cons_self
      · exact nesting_values (fun o ho => h o (List.mem_cons_of_mem _ ho)) v hv

namespace Rule

open Eval

variable {n : Nat} {ev : Evaluator} (d : Nat) (operands : List Expr)

theorem shallow_bind {α : Type} (x : Eval α) {f : α → Eval Outcome} (hf : ∀ a, Shallow n (f a)) :
    Shallow n (x >>= f) :=
  (preserves_true x).bind fun a _ => hf a

theorem shallow_unit : Shallow n (pure .unit) :=
  preserves_pure (Nat.zero_le n)

theorem shallow_within (f : Frame) {body : Eval Outcome} (h : Shallow n body) :
    Shallow n (within f body) := by
  intro m _
  have bounded := h { m with env := m.env.push f } trivial
  unfold within
  cases ended : body { m with env := m.env.push f } with
  | error failure m' => trivial
  | ok outcome m' =>
      rw [ended] at bounded
      exact bounded

theorem shallow_arithmetic (op : Arithmetic) : Shallow n (arithmetic d ev op operands) := by
  cases operands with
  | nil => exact preserves_fail d (.operandCount (.arithmetic op)) _
  | cons first rest =>
      refine shallow_bind _ fun x => shallow_bind _ fun xs => preserves_pure ?_
      simp [Outcome.nesting]

theorem shallow_defineFunction : Shallow n (defineFunction d operands) := by
  unfold defineFunction
  split
  · split
    · exact shallow_bind _ fun _ => shallow_unit
    · exact preserves_fail d _ _
  · exact preserves_fail d _ _
  · exact preserves_fail d _ _

theorem shallow_defineVariable : Shallow n (defineVariable d ev operands) := by
  unfold defineVariable
  split
  · exact shallow_bind _ fun _ => shallow_bind _ fun _ => shallow_unit
  · exact preserves_fail d _ _
  · exact preserves_fail d _ _

theorem shallow_print : Shallow n (print d operands) :=
  shallow_bind _ fun _ => shallow_bind _ fun _ => shallow_bind _ fun _ => shallow_unit

section
variable (hev : ∀ e, Shallow n (ev e))

include hev

theorem shallow_conditional : Shallow n (conditional d ev operands) := by
  unfold conditional
  split
  · exact shallow_bind _ fun _ => shallow_bind _ fun _ => hev _
  · exact preserves_fail d _ _

theorem shallow_operation (op : Operator) : Shallow n (op.run d ev operands) := by
  cases op with
  | arithmetic op => exact shallow_arithmetic d operands op
  | equal | notEqual | negation | conjunction | disjunction =>
      exact (Operator.run_givesVerdict rfl d ev operands).shallow n
  | defineFunction => exact shallow_defineFunction d operands
  | defineVariable => exact shallow_defineVariable d operands
  | print => exact shallow_print d operands
  | conditional => exact shallow_conditional d operands hev

theorem shallow_items (es : List Expr) : Shallow (n + 1) (items ev es) := by
  apply (preserves_mapM fun e _ => hev e).bind
  intro outcomes shallow
  apply preserves_pure
  have all := Expr.nestingOfItems_le_iff.2 (nesting_values shallow)
  simp only [Outcome.nesting, Expr.nesting_list]
  omega

theorem shallow_call (f : String) (b : Binding) (args : List Expr) :
    Shallow n (call d ev f b args) := by
  unfold call
  split
  · exact shallow_bind _ fun values => shallow_bind _ fun _ => shallow_within _ (hev b.body)
  · exact preserves_fail d _ _

theorem shallow_name (x : String) (args : List Expr) : Shallow n (name d ev x args) := by
  refine shallow_bind _ fun env => ?_
  cases env.lookup x with
  | none => exact preserves_pure (by simp [Outcome.nesting])
  | some b =>
      simp only
      split
      · exact shallow_call d hev x b args
      · exact hev b.body

end

end Rule

theorem Shallow.mono {n n' : Nat} (h : n ≤ n') {x : Eval Outcome} (hx : Shallow n x) :
    Shallow n' x :=
  Eval.Preserves.mono hx fun _ bounded => Nat.le_trans bounded h

/-- A value has at most as many lists inside one another as its evaluation was allowed nested
evaluations. -/
theorem eval_shallow : ∀ (d : Nat) (e : Expr), Shallow d (eval d e)
  | 0, _ => fun _ _ => trivial
  | d + 1, e => by
      have parts : ∀ e, Shallow d (eval d e) := eval_shallow d
      refine Rule.shallow_bind _ fun env => ?_
      unfold Environment.form
      split
      · exact Eval.preserves_pure (by simp [Outcome.nesting])
      · exact (Rule.shallow_name d parts _ []).mono (Nat.le_succ d)
      · exact Eval.preserves_pure (by simp [Outcome.nesting, Expr.nestingOfItems])
      · split
        · exact (Rule.shallow_operation d _ parts _).mono (Nat.le_succ d)
        · split
          · exact (Rule.shallow_name d parts _ _).mono (Nat.le_succ d)
          · exact Rule.shallow_items parts _
      · exact Rule.shallow_items parts _

/-! ### The values of the arguments -/

namespace Eval

variable {α β γ : Type}

theorem exists_of_bind_ok {x : Eval α} {f : α → Eval β} {m m' : Machine} {b : β}
    (h : (x >>= f) m = .ok b m') : ∃ a m₁, x m = .ok a m₁ ∧ f a m₁ = .ok b m' := by
  cases first : x m with
  | error failure m₁ =>
      rw [bind_of_error first] at h
      cases h
  | ok a m₁ =>
      rw [bind_of_ok first] at h
      exact ⟨a, m₁, rfl, h⟩

theorem exists_of_mapM_cons_ok {f : α → Eval β} {a : α} {as : List α} {bs : List β} {m m' : Machine}
    (h : (a :: as).mapM f m = .ok bs m') :
    ∃ b m₁ rest, f a m = .ok b m₁ ∧ as.mapM f m₁ = .ok rest m' ∧ bs = b :: rest := by
  rw [List.mapM_cons] at h
  obtain ⟨b, m₁, first, h⟩ := exists_of_bind_ok h
  obtain ⟨rest, m₂, others, h⟩ := exists_of_bind_ok h
  cases h
  exact ⟨b, m₁, rest, first, others, rfl⟩

theorem length_of_mapM {f : α → Eval β} : ∀ {as : List α} {bs : List β} {m m' : Machine},
    as.mapM f m = .ok bs m' → bs.length = as.length
  | [], _, _, _, h => by
      cases h
      rfl
  | a :: as, _, _, _, h => by
      obtain ⟨b, m₁, rest, -, others, rfl⟩ := exists_of_mapM_cons_ok h
      simp [length_of_mapM others]

/-- Where one computation succeeds with `r c`, another one succeeds with `c`. -/
theorem mapM_of_ok {f : α → Eval β} {g : α → Eval γ} {r : γ → β}
    (h : ∀ {a c m m'}, f a m = .ok (r c) m' → g a m = .ok c m') : ∀ {as : List α} {cs : List γ}
      {m m' : Machine}, as.mapM f m = .ok (cs.map r) m' → as.mapM g m = .ok cs m'
  | [], [], _, _, given => by
      cases given
      rfl
  | [], _ :: _, _, _, given => by cases given
  | a :: as, cs, m, m', given => by
      obtain ⟨b, m₁, rest, first, others, same⟩ := exists_of_mapM_cons_ok given
      obtain ⟨c, cs, rfl, rfl, rfl⟩ := List.map_eq_cons_iff.1 same
      rw [List.mapM_cons, bind_of_ok (h first), bind_of_ok (mapM_of_ok h others)]
      rfl

end Eval

theorem nesting_le_of_mapM_eval {d : Nat} {args vs : List Expr} {m m' : Machine}
    (given : args.mapM (eval d) m = .ok (vs.map .value) m') : ∀ v ∈ vs, v.nesting ≤ d := by
  have shallow := Eval.preserves_mapM (fun e (_ : e ∈ args) => eval_shallow d e) m trivial
  rw [given] at shallow
  intro v hv
  exact shallow.2 (.value v) (List.mem_map_of_mem hv)

/-! ### The call -/

/-- Once the arguments have values, the body is evaluated with the parameters bound to them. -/
theorem Rule.call_of_values {d : Nat} {ev : Evaluator} {b : Binding} {args vs : List Expr}
    {m m' : Machine} (count : args.length = b.params.length)
    (given : args.mapM (fun arg => ev.valueOf d arg .unitArgument) m = .ok vs m') (f : String) :
    call d ev f b args m = Eval.within (.ofValues (b.params.zip vs)) (ev b.body)
      { m' with calls := m'.calls.push ⟨f, vs.length⟩ } := by
  rw [call, if_pos count, Eval.bind_of_ok given]
  rfl

/-- **Calls that give an argument.**  A function without a reserved name, with different parameters and
one of them as its body, is called with arguments that have values.  Then the call ends as the
evaluation of the corresponding value does, in the environment that the arguments have left with a frame
more, where the parameters stand for the values.  If the value is inert there, it is what the call
gives, and nothing changes after the arguments but the note on the call; two nested evaluations more
than the call needs for its arguments are enough. -/
theorem eval_call_parameter {d : Nat} {f p : String} {params : List String} {args vs : List Expr}
    {m m' : Machine} {i : Nat} {v : Expr} (unreserved : Operator.ofName? f = none)
    (bound : m.env.lookup f = some ⟨params, .symbol p⟩) (distinct : params.Nodup)
    (count : args.length = params.length)
    (given : args.mapM (eval (d + 1)) m = .ok (vs.map .value) m')
    (parameter : params[i]? = some p) (value : vs[i]? = some v) :
    (∀ d', d ≤ d' → eval (d' + 2) (.list (.symbol f :: args)) m =
      Eval.within (.ofValues (params.zip vs)) (eval d' v)
        { m' with calls := m'.calls.push ⟨f, vs.length⟩ }) ∧
    ((m'.env.push (.ofValues (params.zip vs))).Inert v →
      ∀ d', d + 2 ≤ d' → eval (d' + 2) (.list (.symbol f :: args)) m =
        .ok (.value v) { m' with calls := m'.calls.push ⟨f, vs.length⟩ }) := by
  have paired : params.length = vs.length := by
    rw [← count, ← Eval.length_of_mapM given, List.length_map]
  have function : (Binding.mk params (.symbol p)).isFunction := by
    cases params with
    | nil => cases parameter
    | cons first rest => rfl
  have ends : ∀ d', d ≤ d' → eval (d' + 2) (.list (.symbol f :: args)) m =
      Eval.within (.ofValues (params.zip vs)) (eval d' v)
        { m' with calls := m'.calls.push ⟨f, vs.length⟩ } := by
    intro d' le
    have values : args.mapM (fun arg => Evaluator.valueOf (eval (d' + 1)) (d' + 1) arg .unitArgument) m =
        .ok vs m' :=
      Eval.mapM_of_ok (fun h => Evaluator.valueOf_of_value (eval_of_ok (by omega) h) _ _) given
    have found := m'.env.lookup_parameter distinct paired parameter value
    rw [eval_call unreserved bound function, Rule.call_of_values count values]
    unfold Eval.within
    rw [eval_symbol_variable found]
  refine ⟨ends, fun inert d' enough => ?_⟩
  have nested := nesting_le_of_mapM_eval given v (List.mem_of_getElem? value)
  have again : eval d' v { m' with
      env := m'.env.push (.ofValues (params.zip vs)), calls := m'.calls.push ⟨f, vs.length⟩ } =
      .ok (.value v) { m' with
        env := m'.env.push (.ofValues (params.zip vs)), calls := m'.calls.push ⟨f, vs.length⟩ } :=
    eval_inert inert (by omega)
  rw [ends d' (by omega), Eval.within, again]
  rfl

/-- The environment of the beginning, with a frame in which a function is bound. -/
def Environment.withFunction (f : String) (params : List String) (body : Expr) : Environment :=
  default.push ⟨[(f, ⟨params, body⟩)]⟩

/-- The value `(1)` of the first argument, whose evaluation prints a line. -/
theorem eval_call_first_parameter :
    eval 6 (.list [.symbol "f", .list [.number 1, .operation .print [.symbol "then"]], .symbol "z"])
        (.start (.withFunction "f" ["x", "y"] (.symbol "x"))) =
      .ok (.value (.list [.number 1]))
        ⟨.withFunction "f" ["x", "y"] (.symbol "x"), #["then"], #[⟨"f", 2⟩]⟩ := by
  have given : [Expr.list [.number 1, .operation .print [.symbol "then"]], .symbol "z"].mapM (eval 3)
      (.start (.withFunction "f" ["x", "y"] (.symbol "x"))) =
      .ok ([Expr.list [.number 1], .symbol "z"].map .value)
        ⟨.withFunction "f" ["x", "y"] (.symbol "x"), #["then"], #[]⟩ := rfl
  have bound : (Environment.withFunction "f" ["x", "y"] (.symbol "x")).lookup "f" =
      some ⟨["x", "y"], .symbol "x"⟩ := rfl
  have parameter : ["x", "y"][0]? = some "x" := rfl
  have call := eval_call_parameter rfl bound (by decide) rfl given parameter rfl
  refine call.2 (.list ?_ ?_) 4 (by decide)
  · intro item hitem
    obtain rfl := List.mem_singleton.1 hitem
    exact .number 1
  · intro name first
    cases first

/-- A variable that stands for its own name is looked up without an end. -/
theorem eval_symbol_self {name : String} {m : Machine}
    (h : m.env.lookup name = some (.ofValue (.symbol name))) :
    ∀ d, eval d (.symbol name) m = .error .exhausted m
  | 0 => rfl
  | d + 1 => by rw [eval_symbol_variable h, eval_symbol_self h d]

/-- With its own parameter as argument, the identity is evaluated without an end. -/
theorem eval_call_own_parameter : ∀ d, ∃ m', eval d (.list [.symbol "f", .symbol "x"])
    (.start (.withFunction "f" ["x"] (.symbol "x"))) = .error .exhausted m'
  | 0 => ⟨_, rfl⟩
  | 1 => ⟨_, rfl⟩
  | d + 2 => by
      have values : [Expr.symbol "x"].mapM
          (fun arg => Evaluator.valueOf (eval (d + 1)) (d + 1) arg .unitArgument)
          (.start (.withFunction "f" ["x"] (.symbol "x"))) =
            .ok [.symbol "x"] (.start (.withFunction "f" ["x"] (.symbol "x"))) := rfl
      refine ⟨⟨.withFunction "f" ["x"] (.symbol "x"), #[], #[⟨"f", 1⟩]⟩, ?_⟩
      rw [eval_call rfl rfl rfl, Rule.call_of_values rfl values, Eval.within, eval_symbol_self (by rfl)]
      rfl

/-- Values that the call does not give back: a symbol that is another parameter, which stands for the
number there; one that is the parameter itself, for which no number of nested evaluations is enough; a
list that is an operation by then; and any argument if the name of the function is reserved. -/
theorem call_parameter_gives_another_value :
    (∃ m, [Expr.symbol "y", .number 1].mapM (eval 3)
          (.start (.withFunction "f" ["x", "y"] (.symbol "x"))) =
        .ok ([Expr.symbol "y", .number 1].map .value) m ∧
      ∃ m', ∀ d, eval (d + 4) (.list [.symbol "f", .symbol "y", .number 1])
          (.start (.withFunction "f" ["x", "y"] (.symbol "x"))) = .ok (.value (.number 1)) m') ∧
    (∃ m, [Expr.symbol "x"].mapM (eval 3) (.start (.withFunction "f" ["x"] (.symbol "x"))) =
        .ok ([Expr.symbol "x"].map .value) m ∧
      ∀ d, ∃ m', eval d (.list [.symbol "f", .symbol "x"])
          (.start (.withFunction "f" ["x"] (.symbol "x"))) = .error .exhausted m') ∧
    (∃ m, [Expr.list [.conditional (.number 1) (.symbol "print") (.symbol "else"), .symbol "then"]].mapM
          (eval 4) (.start (.withFunction "f" ["x"] (.symbol "x"))) =
        .ok ([Expr.operation .print [.symbol "then"]].map .value) m ∧
      ∃ m', ∀ d, eval (d + 6) (.list [.symbol "f",
            .list [.conditional (.number 1) (.symbol "print") (.symbol "else"), .symbol "then"]])
          (.start (.withFunction "f" ["x"] (.symbol "x"))) = .ok .unit m') ∧
    (∃ m, [Expr.symbol "a"].mapM (eval 3) (.start (.withFunction "+" ["x"] (.symbol "x"))) =
        .ok ([Expr.symbol "a"].map .value) m ∧
      ∀ d, ∃ m', eval (d + 2) (.list [.symbol "+", .symbol "a"])
          (.start (.withFunction "+" ["x"] (.symbol "x"))) =
        .error (.error (.notANumber .sum (.symbol "a"))) m') :=
  ⟨⟨_, rfl, _, fun _ => rfl⟩, ⟨_, rfl, eval_call_own_parameter⟩, ⟨_, rfl, _, fun _ => rfl⟩,
    ⟨_, rfl, fun _ => ⟨_, rfl⟩⟩⟩

end DynLisp
