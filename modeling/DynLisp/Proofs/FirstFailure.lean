import DynLisp.Proofs.Conditions
import DynLisp.Proofs.Frames
import DynLisp.Proofs.ListProgram

/-! # The first operand that fails

Arithmetic, comparisons, calls and lists of items evaluate their operands from left to right, and each
has its own way to do so.  What they have in common is that nothing happens after the first operand that
fails or that does not do in its role.

* `Role.refusal` says which outcomes do not do in a role, and why.
* `Role.Accepts` passes from the machine before some operands to the machine after them, where all of
  them have done; `Role.Stops` holds for an operand that ends the evaluation.
* `Fetches` is what the ways of evaluating an operand have in common, and `Fetches.mapM_of_stops` the
  induction on the operands before the first one that fails. -/

namespace DynLisp

/-- How an evaluation fails by an error: by exhaustion if the nested calls do not allow to write the
expression that the message shows. -/
def EvalError.failure (d : Nat) (e : EvalError) : Failure :=
  if ∀ shown ∈ e.shown?, shown.nesting < d then .error e else .exhausted

theorem Eval.fail_eq {α : Type} (d : Nat) (e : EvalError) (m : Machine) :
    (fail d e : Eval α) m = .error (e.failure d) m := by
  unfold fail EvalError.failure Expr.sourceWithin
  cases e.shown? with
  | none => simp; rfl
  | some shown =>
      by_cases shallow : shown.nesting < d
      · simp [shallow]; rfl
      · simp [shallow]; rfl

/-! ### Roles of operands -/

/-- What an operand is there for. -/
inductive Role where
  /-- To be calculated with. -/
  | number (op : Arithmetic)
  /-- To be compared with others. -/
  | compared
  /-- To be an argument of a function. -/
  | argument
  /-- To be an item of a list. -/
  | item

namespace Role

/-- Why an operand with this outcome does not do, if it does not. -/
def refusal (operand : Expr) : Role → Outcome → Option EvalError
  | number _, .unit => some (.unitOperand operand)
  | number op, .value v => if v.isNumber then none else some (.notANumber op v)
  | compared, .unit => some .unitCompared
  | argument, .unit => some .unitArgument
  | _, _ => none

/-- All operands do when they are evaluated one after the other, which leads from one machine to the
other. -/
inductive Accepts (role : Role) (ev : Evaluator) : List Expr → Machine → Machine → Prop
  | nil (m : Machine) : Accepts role ev [] m m
  | cons {e : Expr} {rest : List Expr} {outcome : Outcome} {m m' m'' : Machine} :
      ev e m = .ok outcome m' → role.refusal e outcome = none → Accepts role ev rest m' m'' →
        Accepts role ev (e :: rest) m m''

/-- The operand fails, or its outcome does not do. -/
inductive Stops (role : Role) (d : Nat) (ev : Evaluator) (e : Expr) (m : Machine) :
    Failure → Machine → Prop
  | failed {failure : Failure} {m' : Machine} : ev e m = .error failure m' →
      Stops role d ev e m failure m'
  | refused {outcome : Outcome} {cause : EvalError} {m' : Machine} : ev e m = .ok outcome m' →
      role.refusal e outcome = some cause → Stops role d ev e m (cause.failure d) m'

/-- Either all operands do, or there is a first one that ends the evaluation. -/
theorem accepts_or_stops (role : Role) (d : Nat) (ev : Evaluator) : ∀ (es : List Expr) (m : Machine),
    (∃ m', role.Accepts ev es m m') ∨ ∃ before e after m₁ failure m₂, es = before ++ e :: after ∧
      role.Accepts ev before m m₁ ∧ role.Stops d ev e m₁ failure m₂
  | [], m => .inl ⟨m, .nil m⟩
  | e :: rest, m => by
      cases ended : ev e m with
      | error failure m₁ => exact .inr ⟨[], e, rest, m, failure, m₁, rfl, .nil m, .failed ended⟩
      | ok outcome m₁ =>
          cases refused : role.refusal e outcome with
          | some cause => exact .inr ⟨[], e, rest, m, _, m₁, rfl, .nil m, .refused ended refused⟩
          | none =>
              rcases accepts_or_stops role d ev rest m₁ with
                ⟨m', all⟩ | ⟨before, e', after, m', failure, m₂, rfl, done, stops⟩
              · exact .inl ⟨m', .cons ended refused all⟩
              · exact .inr ⟨e :: before, e', after, m', failure, m₂, rfl,
                  .cons ended refused done, stops⟩

end Role

/-! ### Ways of evaluating an operand -/

/-- A way of evaluating an operand in its role: it fails where the evaluation fails and where the outcome
does not do, and only there. -/
structure Fetches {α : Type} (role : Role) (d : Nat) (ev : Evaluator) (f : Expr → Eval α) : Prop where
  failed : ∀ {e m failure m'}, ev e m = .error failure m' → f e m = .error failure m'
  refused : ∀ {e m outcome m' cause}, ev e m = .ok outcome m' → role.refusal e outcome = some cause →
    f e m = .error (cause.failure d) m'
  accepted : ∀ {e m outcome m'}, ev e m = .ok outcome m' → role.refusal e outcome = none →
    ∃ a, f e m = .ok a m'

section
variable {d : Nat} {ev : Evaluator}

theorem Evaluator.valueOf_of_error {e : Expr} {m m' : Machine} {failure : Failure}
    (h : ev e m = .error failure m') (noValue : EvalError) :
    ev.valueOf d e noValue m = .error failure m' := by
  rw [valueOf, Eval.bind_of_error h]

theorem Evaluator.valueOf_of_unit {e : Expr} {m m' : Machine} (h : ev e m = .ok .unit m')
    (noValue : EvalError) : ev.valueOf d e noValue m = .error (noValue.failure d) m' := by
  rw [valueOf, Eval.bind_of_ok h]
  exact Eval.fail_eq d noValue m'

theorem fetches_item : Fetches .item d ev ev where
  failed h := h
  refused _ none := by cases none
  accepted h _ := ⟨_, h⟩

/-- Where every value does and no value does not, the operand is evaluated to its value. -/
theorem fetches_valueOf {role : Role} {noValue : EvalError}
    (unit : ∀ e, role.refusal e .unit = some noValue)
    (value : ∀ e v, role.refusal e (.value v) = none) :
    Fetches role d ev fun e => ev.valueOf d e noValue where
  failed h := Evaluator.valueOf_of_error h noValue
  refused {e _ outcome _ _} h refused := by
    cases outcome with
    | value v =>
        rw [value] at refused
        cases refused
    | unit =>
        rw [unit, Option.some.injEq] at refused
        subst refused
        exact Evaluator.valueOf_of_unit h noValue
  accepted {e _ outcome _} h refused := by
    cases outcome with
    | value v => exact ⟨v, Evaluator.valueOf_of_value h d noValue⟩
    | unit =>
        rw [unit] at refused
        cases refused

theorem fetches_operandNumber (op : Arithmetic) :
    Fetches (.number op) d ev (Rule.operandNumber d ev op) where
  failed h := by rw [Rule.operandNumber, Eval.bind_of_error (Evaluator.valueOf_of_error h _)]
  refused {e _ outcome m' _} h refused := by
    cases outcome with
    | unit =>
        cases refused
        rw [Rule.operandNumber, Eval.bind_of_error (Evaluator.valueOf_of_unit h _)]
    | value v =>
        rw [Rule.operandNumber, Eval.bind_of_ok (Evaluator.valueOf_of_value h d _)]
        cases v with
        | number x => cases refused
        | symbol name | list items =>
            cases refused
            exact Eval.fail_eq d _ m'
  accepted {e _ outcome _} h refused := by
    cases outcome with
    | unit => cases refused
    | value v =>
        rw [Rule.operandNumber, Eval.bind_of_ok (Evaluator.valueOf_of_value h d _)]
        cases v with
        | number x => exact ⟨x, rfl⟩
        | symbol name | list items => cases refused

namespace Fetches

variable {α : Type} {role : Role} {f : Expr → Eval α} (hf : Fetches role d ev f)

include hf

theorem of_stops {e : Expr} {m m' : Machine} {failure : Failure}
    (stops : role.Stops d ev e m failure m') : f e m = .error failure m' := by
  cases stops with
  | failed ended => exact hf.failed ended
  | refused ended refused => exact hf.refused ended refused

/-- Nothing is done for the operands after the first one that ends the evaluation. -/
theorem mapM_of_stops {before : List Expr} {e : Expr} {m m₁ m₂ : Machine} {failure : Failure}
    (accepts : role.Accepts ev before m m₁) (stops : role.Stops d ev e m₁ failure m₂)
    (after : List Expr) : (before ++ e :: after).mapM f m = .error failure m₂ := by
  induction accepts with
  | nil m => rw [List.nil_append, List.mapM_cons, Eval.bind_of_error (hf.of_stops stops)]
  | cons ended done _ ih =>
      obtain ⟨a, fetched⟩ := hf.accepted ended done
      rw [List.cons_append, List.mapM_cons, Eval.bind_of_ok fetched, Eval.bind_of_error (ih stops)]

end Fetches

/-! ### Rules that evaluate their operands -/

theorem Rule.arithmetic_of_error {op : Arithmetic} {operands : List Expr} {m m' : Machine}
    {failure : Failure} (h : operands.mapM (operandNumber d ev op) m = .error failure m') :
    arithmetic d ev op operands m = .error failure m' := by
  cases operands with
  | nil => cases h
  | cons first rest =>
      rw [List.mapM_cons] at h
      cases fetched : operandNumber d ev op first m with
      | error _ m₁ =>
          rw [Eval.bind_of_error fetched] at h
          cases h
          rw [arithmetic, Eval.bind_of_error fetched]
      | ok x m₁ =>
          rw [Eval.bind_of_ok fetched] at h
          rw [arithmetic, Eval.bind_of_ok fetched]
          cases others : rest.mapM (operandNumber d ev op) m₁ with
          | error _ m₂ =>
              rw [Eval.bind_of_error others] at h
              cases h
              rw [Eval.bind_of_error others]
          | ok xs m₂ =>
              rw [Eval.bind_of_ok others] at h
              cases h

theorem Rule.comparison_of_error {op : Operator} {flip : Bool} {operands : List Expr}
    {m m' : Machine} {failure : Failure}
    (h : operands.mapM (fun e => ev.valueOf d e .unitCompared) m = .error failure m') :
    comparison d ev op flip operands m = .error failure m' := by
  cases operands with
  | nil => cases h
  | cons first rest => rw [comparison, Eval.bind_of_error h]; simp

theorem Rule.call_of_error {b : Binding} {args : List Expr} {m m' : Machine} {failure : Failure}
    (count : args.length = b.params.length)
    (h : args.mapM (fun arg => ev.valueOf d arg .unitArgument) m = .error failure m') (f : String) :
    call d ev f b args m = .error failure m' := by
  rw [call, if_pos count, Eval.bind_of_error h]

end

/-- The list that begins so and goes on with such operands evaluates them in this role. -/
inductive Environment.Gathers (env : Environment) : Role → List Expr → List Expr → Prop
  /-- `(+ a b …)`, `(- a b …)`, `(* a b …)`, `(/ a b …)`. -/
  | arithmetic (op : Arithmetic) (operands : List Expr) :
      Gathers env (.number op) [.symbol (Operator.arithmetic op).name] operands
  /-- `(= a b …)`. -/
  | equal (operands : List Expr) : Gathers env .compared [.symbol Operator.equal.name] operands
  /-- `(!= a b …)`. -/
  | notEqual (operands : List Expr) : Gathers env .compared [.symbol Operator.notEqual.name] operands
  /-- A call with as many arguments as there are parameters. -/
  | call {f : String} {b : Binding} {args : List Expr} : Operator.ofName? f = none →
      env.lookup f = some b → b.isFunction → args.length = b.params.length →
        Gathers env .argument [.symbol f] args
  /-- A list that begins neither with a reserved nor with a bound name. -/
  | items {es : List Expr} : es ≠ [] → (∀ name, es.head? = some (.symbol name) →
      Operator.ofName? name = none ∧ env.contains name = false) → Gathers env .item [] es

theorem Environment.Gathers.replace {env : Environment} {role : Role} {head before after : List Expr}
    {e : Expr} (h : env.Gathers role head (before ++ e :: after)) {others : List Expr}
    (count : role = .argument → others.length = after.length) :
    env.Gathers role head (before ++ e :: others) := by
  generalize same : before ++ e :: after = operands at h
  cases h with
  | arithmetic op => exact .arithmetic op _
  | equal => exact .equal _
  | notEqual => exact .notEqual _
  | call unreserved bound function enough =>
      refine .call unreserved bound function ?_
      rw [← enough, ← same]
      simp [count rfl]
  | items ne free =>
      refine .items (by simp) ?_
      rw [← same] at free
      cases before <;> exact free

/-- The whole ends as the first operand does that fails or does not do. -/
theorem eval_of_stops {role : Role} {head before after : List Expr} {e : Expr} {d : Nat}
    {m m₁ m₂ : Machine} {failure : Failure}
    (gathers : m.env.Gathers role head (before ++ e :: after))
    (accepts : role.Accepts (eval d) before m m₁) (stops : role.Stops d (eval d) e m₁ failure m₂) :
    eval (d + 1) (.list (head ++ (before ++ e :: after))) m = .error failure m₂ := by
  generalize same : before ++ e :: after = operands at gathers
  cases gathers with
  | arithmetic op =>
      have failed := (fetches_operandNumber op).mapM_of_stops accepts stops after
      exact (eval_operation d _ _ m).trans (Rule.arithmetic_of_error (same ▸ failed))
  | equal | notEqual =>
      have fetches : Fetches .compared d (eval d) _ := fetches_valueOf (fun _ => rfl) fun _ _ => rfl
      have failed := fetches.mapM_of_stops accepts stops after
      exact (eval_operation d _ _ m).trans (Rule.comparison_of_error (same ▸ failed))
  | call unreserved bound function count =>
      have fetches : Fetches .argument d (eval d) _ := fetches_valueOf (fun _ => rfl) fun _ _ => rfl
      have failed := fetches.mapM_of_stops accepts stops after
      exact (eval_call unreserved bound function).trans (Rule.call_of_error count (same ▸ failed) _)
  | items ne free =>
      have failed := fetches_item.mapM_of_stops accepts stops after
      exact (eval_items ne free).trans (Rule.items_of_error (same ▸ failed))

/-- **The first failure counts.**  Operands are evaluated from left to right until one fails or does not
do in its role.  The whole ends with this failure, on the machine that the operands up to this one
leave; and so it does with any other operands in place of those that follow, as many for a call. -/
theorem eval_first_failure {role : Role} {head operands : List Expr} {m : Machine}
    (gathers : m.env.Gathers role head operands) (d : Nat) :
    ((∃ m', role.Accepts (eval d) operands m m') ∨
      ∃ before e after m₁ failure m₂, operands = before ++ e :: after ∧
        role.Accepts (eval d) before m m₁ ∧ role.Stops d (eval d) e m₁ failure m₂) ∧
    ∀ before e after m₁ failure m₂, operands = before ++ e :: after →
      role.Accepts (eval d) before m m₁ → role.Stops d (eval d) e m₁ failure m₂ →
      eval (d + 1) (.list (head ++ operands)) m = .error failure m₂ ∧
      ∀ others, (role = .argument → others.length = after.length) →
        eval (d + 1) (.list (head ++ (before ++ e :: others))) m = .error failure m₂ := by
  refine ⟨role.accepts_or_stops d (eval d) operands m, ?_⟩
  rintro before e after m₁ failure m₂ rfl accepts stops
  exact ⟨eval_of_stops gathers accepts stops, fun others count =>
    eval_of_stops (gathers.replace count) accepts stops⟩

/-- An argument without a value: what the one before it prints stays, the one after it does not matter. -/
theorem call_stops_at_unit_argument :
    let m : Machine := .start ⟨[⟨[("f", ⟨["x", "y", "z"], .symbol "x"⟩)]⟩]⟩
    let first : Expr := .list [.operation .print [.symbol "a"]]
    let second : Expr := .operation .print [.symbol "b"]
    m.env.Gathers .argument [.symbol "f"] [first, second, .operation .print [.symbol "c"]] ∧
    Role.Accepts .argument (eval 4) [first] m { m with printed := #["a"] } ∧
    Role.Stops .argument 4 (eval 4) second { m with printed := #["a"] } (.error .unitArgument)
      { m with printed := #["a", "b"] } ∧
    eval 5 (.list [.symbol "f", first, second, .operation .print [.symbol "c"]]) m =
      .error (.error .unitArgument) { m with printed := #["a", "b"] } ∧
    eval 5 (.list [.symbol "f", first, second, .list [.symbol "+"]]) m =
      .error (.error .unitArgument) { m with printed := #["a", "b"] } := by
  intro m first second
  have gathers : m.env.Gathers .argument [.symbol "f"]
      [first, second, .operation .print [.symbol "c"]] := .call rfl rfl rfl rfl
  have printed : eval 4 first m = .ok (.value (.list [])) { m with printed := #["a"] } := rfl
  have accepts : Role.Accepts .argument (eval 4) [first] m { m with printed := #["a"] } :=
    .cons printed rfl (.nil _)
  have unit : eval 4 second { m with printed := #["a"] } =
      .ok .unit { m with printed := #["a", "b"] } := rfl
  have plain : EvalError.unitArgument.failure 4 = .error .unitArgument := rfl
  have stops : Role.Stops .argument 4 (eval 4) second { m with printed := #["a"] }
      (.error .unitArgument) { m with printed := #["a", "b"] } := plain ▸ .refused unit rfl
  have fails := (eval_first_failure gathers 4).2 [first] second _ _ _ _ rfl accepts stops
  exact ⟨gathers, accepts, stops, fails.1, fails.2 [.list [.symbol "+"]] fun _ => rfl⟩

end DynLisp
