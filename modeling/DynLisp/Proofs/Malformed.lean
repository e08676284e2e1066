import DynLisp.Proofs.Conditions
import DynLisp.Proofs.Resolution

/-! # Malformed forms

A reserved operator takes so many operands, a function as many arguments as it has parameters, and a
definition wants symbols and a list in certain places.  Each rule checks this before anything else.

* `Environment.WrongCount` and `Expr.WrongShape` say what is wrong with an expression, and by which error
  it fails.
* `Environment.FailsAtOnce` says that an expression fails by an error on the machine as it is, whatever
  the evaluation of its parts would do.
* `Operator.run_of_not_takes` and the lemmas beside it hold for every way to evaluate the parts.  The
  converse, `Environment.FailsAtOnce.wrong`, takes the one way that has a result for no part at all.
* `malformed_fails_first`: the two kinds of malformed expressions are those that fail at once by an error
  of the two kinds. -/

namespace DynLisp

/-- Whether an operator takes so many operands. -/
def Operator.takes : Operator → Nat → Bool
  | arithmetic _, n | equal, n | notEqual, n | conjunction, n | disjunction, n => 1 ≤ n
  | negation, n => n = 1
  | defineVariable, n => n = 2
  | defineFunction, n | conditional, n => n = 3
  | print, _ => true

/-- The expression has a wrong number of operands or arguments, and this is the error. -/
inductive Environment.WrongCount (env : Environment) : Expr → EvalError → Prop
  | operands {op : Operator} {operands : List Expr} : op.takes operands.length = false →
      WrongCount env (.operation op operands) (.operandCount op)
  | arguments {f : String} {b : Binding} {args : List Expr} : Operator.ofName? f = none →
      env.lookup f = some b → b.isFunction → args.length ≠ b.params.length →
      WrongCount env (.list (.symbol f :: args)) (.argumentCount f args.length b.params.length)
  /-- The name of a function stands for a call without arguments. -/
  | function {f : String} {b : Binding} : env.lookup f = some b → b.isFunction →
      WrongCount env (.symbol f) (.argumentCount f 0 b.params.length)

/-- The expression is a definition with something in a wrong place, and this is the error. -/
inductive Expr.WrongShape : Expr → EvalError → Prop
  | variableTarget {target definition : Expr} : target.isSymbol = false →
      WrongShape (.operation .defineVariable [target, definition]) .variableShape
  | functionParts {target params body : Expr} : target.isSymbol = false ∨ params.isList = false →
      WrongShape (.operation .defineFunction [target, params, body]) .functionShape
  | parameter {name : String} {params : List Expr} {body p : Expr} : p ∈ params →
      p.isSymbol = false →
      WrongShape (.operation .defineFunction [.symbol name, .list params, body]) .parameterShape

/-- The expression fails by this error on the machine as it is, whatever the evaluation of its parts
would do. -/
def Environment.FailsAtOnce (env : Environment) (e : Expr) (cause : EvalError) : Prop :=
  ∀ (d : Nat) (ev : Evaluator) (m : Machine), m.env = env →
    (env.form e).run d ev m = .error (.error cause) m

/-- An error whose message shows no expression needs no nested calls. -/
theorem Eval.fail_of_plain {α : Type} {cause : EvalError} (plain : cause.shown? = none) (d : Nat) :
    (fail d cause : Eval α) = throw (.error cause) := by
  unfold fail
  rw [plain]

/-! ### Rules that check first -/

section
variable (d : Nat) (ev : Evaluator)

theorem Operator.run_of_not_takes {op : Operator} {operands : List Expr}
    (wrong : op.takes operands.length = false) :
    op.run d ev operands = Eval.fail d (.operandCount op) := by
  cases op with
  | arithmetic _ | equal | notEqual | conjunction | disjunction =>
      obtain rfl : operands = [] := by simpa [takes] using wrong
      rfl
  | negation =>
      simp only [run, Rule.negation]
      split
      · cases wrong
      · rfl
  | defineVariable =>
      simp only [run, Rule.defineVariable]
      split
      · cases wrong
      · cases wrong
      · rfl
  | defineFunction =>
      simp only [run, Rule.defineFunction]
      split
      · cases wrong
      · cases wrong
      · rfl
  | conditional =>
      simp only [run, Rule.conditional]
      split
      · cases wrong
      · rfl
  | print => cases wrong

theorem Rule.defineVariable_of_shape {target : Expr} (wrong : target.isSymbol = false)
    (definition : Expr) : defineVariable d ev [target, definition] = Eval.fail d .variableShape := by
  cases target with
  | number x | list items => rfl
  | symbol name => cases wrong

theorem Rule.defineFunction_of_shape {target params : Expr}
    (wrong : target.isSymbol = false ∨ params.isList = false) (body : Expr) :
    defineFunction d [target, params, body] = Eval.fail d .functionShape := by
  cases target with
  | number x | list items => rfl
  | symbol name =>
      cases params with
      | number x | symbol name => rfl
      | list items => simp [Expr.isSymbol, Expr.isList] at wrong

theorem Expr.mapM_name?_eq_none_iff {params : List Expr} :
    params.mapM Expr.name? = none ↔ ∃ p ∈ params, p.isSymbol = false := by
  have named (p : Expr) : p.name?.isSome = p.isSymbol := by cases p <;> rfl
  rw [← Option.not_isSome_iff_eq_none, isSome_mapM_iff]
  simp [named]

theorem Rule.defineFunction_of_parameter {params : List Expr} {p : Expr} (member : p ∈ params)
    (wrong : p.isSymbol = false) (name : String) (body : Expr) :
    defineFunction d [.symbol name, .list params, body] = Eval.fail d .parameterShape := by
  have unnamed : params.mapM Expr.name? = none := Expr.mapM_name?_eq_none_iff.2 ⟨p, member, wrong⟩
  simp only [defineFunction, unnamed]

end

theorem Environment.WrongCount.kind {env : Environment} {e : Expr} {cause : EvalError}
    (h : env.WrongCount e cause) : cause.kind = .arity := by
  cases h <;> rfl

theorem Expr.WrongShape.kind {e : Expr} {cause : EvalError} (h : e.WrongShape cause) :
    cause.kind = .typeMismatch := by
  cases h <;> rfl

/-! ### What fails at once -/

namespace Environment

variable {env : Environment} {e : Expr} {cause : EvalError}

theorem failsAtOnce_of_operation {op : Operator} {operands : List Expr} (plain : cause.shown? = none)
    (fails : ∀ d ev, op.run d ev operands = Eval.fail d cause) :
    env.FailsAtOnce (.operation op operands) cause := by
  intro d ev m _
  rw [env.form_operation]
  show op.run d ev operands m = _
  rw [fails, Eval.fail_of_plain plain]
  rfl

/-- A name that is bound to a function, with another number of arguments than it has parameters. -/
theorem run_name_of_count {m : Machine} {f : String} {b : Binding} {args : List Expr}
    (bound : m.env.lookup f = some b) (function : b.isFunction)
    (wrong : args.length ≠ b.params.length) (d : Nat) (ev : Evaluator) :
    Rule.name d ev f args m =
      .error (.error (.argumentCount f args.length b.params.length)) m := by
  rw [Rule.name_of_lookup bound, if_pos function, Rule.call, if_neg wrong, Eval.fail_of_plain rfl]
  rfl

theorem WrongCount.failsAtOnce (h : env.WrongCount e cause) : env.FailsAtOnce e cause := by
  cases h with
  | operands wrong =>
      exact failsAtOnce_of_operation rfl fun d ev => Operator.run_of_not_takes d ev wrong
  | arguments unreserved bound function wrong =>
      rintro d ev m rfl
      rw [form_of_lookup unreserved bound]
      exact run_name_of_count bound function wrong d ev
  | @function f b bound function =>
      rintro d ev m rfl
      refine run_name_of_count bound function (fun none => ?_) d ev
      obtain ⟨params, body⟩ := b
      rw [List.length_nil, eq_comm, List.length_eq_zero_iff] at none
      subst none
      cases function

end Environment

theorem Expr.WrongShape.failsAtOnce {e : Expr} {cause : EvalError} (h : e.WrongShape cause)
    (env : Environment) : env.FailsAtOnce e cause := by
  cases h with
  | variableTarget wrong =>
      refine Environment.failsAtOnce_of_operation rfl fun d ev => ?_
      exact Rule.defineVariable_of_shape d ev wrong _
  | functionParts wrong =>
      refine Environment.failsAtOnce_of_operation rfl fun d _ => ?_
      exact Rule.defineFunction_of_shape d wrong _
  | parameter member wrong =>
      refine Environment.failsAtOnce_of_operation rfl fun d _ => ?_
      exact Rule.defineFunction_of_parameter d member wrong _ _

/-! ### Nothing else fails at once -/

/-- A way to evaluate the parts that has a result for none of them. -/
def Evaluator.stuck : Evaluator := fun _ => Eval.exhaust

section
variable {d : Nat} {m m' : Machine} {cause : EvalError} {operands : List Expr}

namespace Rule

theorem no_error_of_ofOption {α : Type} {o : Option α} {f : α → Outcome} :
    (do return f (← Eval.ofOption o) : Eval Outcome) m ≠ .error (.error cause) m' := by
  intro h
  cases o <;> cases h

theorem no_error_of_print : print d operands m ≠ .error (.error cause) m' := by
  intro h
  cases rendered : operands.mapM (m.env.render d) with
  | none =>
      rw [print_of_none rendered] at h
      cases h
  | some texts =>
      rw [print_of_some rendered] at h
      cases h

/-- A name cannot be bound only if there is no frame. -/
theorem kind_of_bindName {name : String} {b : Binding}
    (h : (do Eval.bindName name b; return .unit : Eval Outcome) m = .error (.error cause) m') :
    cause.kind = .scope := by
  cases bound : m.env.bind name b with
  | ok env =>
      rw [Eval.bind_of_ok (Eval.bindName_of_ok bound)] at h
      cases h
  | error scope =>
      rw [Eval.bind_of_error (Eval.bindName_of_error bound)] at h
      cases h
      rfl

/-- A definition of a variable with two operands evaluates the second one, or its first is no symbol. -/
theorem wrong_of_defineVariable_stuck (takes : operands.length = 2)
    (h : defineVariable d .stuck operands m = .error (.error cause) m') :
    (Expr.operation .defineVariable operands).WrongShape cause := by
  match operands, takes with
  | [.symbol name, definition], _ => cases h
  | [.number x, definition], _ | [.list items, definition], _ =>
      rw [defineVariable_of_shape d _ rfl, Eval.fail_of_plain rfl] at h
      cases h
      exact .variableTarget rfl

/-- A definition of a function with three operands binds a name, or something in it is in a wrong
place. -/
theorem wrong_of_defineFunction (takes : operands.length = 3)
    (h : defineFunction d operands m = .error (.error cause) m') :
    (Expr.operation .defineFunction operands).WrongShape cause ∨ cause.kind = .scope := by
  match operands, takes with
  | [target, params, body], _ =>
      by_cases parts : target.isSymbol = false ∨ params.isList = false
      · rw [defineFunction_of_shape d parts, Eval.fail_of_plain rfl] at h
        cases h
        exact .inl (.functionParts parts)
      match target, params with
      | .number x, _ | .list items, _ => exact absurd (.inl rfl) parts
      | .symbol name, .number x | .symbol name, .symbol s => exact absurd (.inr rfl) parts
      | .symbol name, .list params =>
          cases named : params.mapM Expr.name? with
          | none =>
              obtain ⟨p, member, wrong⟩ := Expr.mapM_name?_eq_none_iff.1 named
              rw [defineFunction_of_parameter d member wrong, Eval.fail_of_plain rfl] at h
              cases h
              exact .inl (.parameter member wrong)
          | some names =>
              simp only [defineFunction, named] at h
              exact .inr (kind_of_bindName h)

/-- A call with as many arguments as there are parameters evaluates the first of them. -/
theorem wrong_of_name_stuck {f : String} {args : List Expr}
    (h : name d .stuck f args m = .error (.error cause) m') :
    ∃ b, m.env.lookup f = some b ∧ b.isFunction ∧ args.length ≠ b.params.length ∧
      cause = .argumentCount f args.length b.params.length := by
  cases bound : m.env.lookup f with
  | none =>
      rw [name, Eval.environment_bind, bound] at h
      cases h
  | some b =>
      rw [name_of_lookup bound] at h
      cases function : b.isFunction with
      | false =>
          rw [function] at h
          cases h
      | true =>
          rw [if_pos function, call] at h
          by_cases count : args.length = b.params.length
          · rw [if_pos count] at h
            cases args <;> cases h
          · rw [if_neg count, Eval.fail_of_plain rfl] at h
            cases h
            exact ⟨b, rfl, function, count, rfl⟩

end Rule

theorem Operator.wrong_of_run_stuck {op : Operator} (env : Environment)
    (h : op.run d .stuck operands m = .error (.error cause) m') :
    env.WrongCount (.operation op operands) cause ∨
      (Expr.operation op operands).WrongShape cause ∨ cause.kind = .scope := by
  cases takes : op.takes operands.length with
  | false =>
      rw [run_of_not_takes d _ takes, Eval.fail_of_plain rfl] at h
      cases h
      exact .inl (.operands takes)
  | true =>
      cases op with
      | arithmetic _ | equal | notEqual =>
          match operands with
          | _ :: _ => cases h
      | negation =>
          match operands with
          | [_] => cases h
      | conditional =>
          match operands with
          | [_, _, _] => cases h
      | conjunction =>
          match operands with
          | _ :: _ => exact absurd h Rule.no_error_of_ofOption
      | disjunction =>
          match operands with
          | _ :: _ => cases h
      | defineVariable =>
          have two : operands.length = 2 := by simpa [Operator.takes] using takes
          exact .inr (.inl (Rule.wrong_of_defineVariable_stuck two h))
      | defineFunction =>
          have three : operands.length = 3 := by simpa [Operator.takes] using takes
          exact .inr (Rule.wrong_of_defineFunction three h)
      | print => exact absurd h Rule.no_error_of_print

end

/-- What comes whatever the parts do comes also where none of them has a result. -/
theorem Environment.FailsAtOnce.wrong {env : Environment} {e : Expr} {cause : EvalError}
    (fails : env.FailsAtOnce e cause) :
    env.WrongCount e cause ∨ e.WrongShape cause ∨ cause.kind = .scope := by
  have stopped := fails 0 .stuck (.start env) rfl
  match e with
  | .number x | .list [] | .list (.number x :: rest) | .list (.list es :: rest) => cases stopped
  | .symbol f =>
      obtain ⟨b, bound, function, -, rfl⟩ := Rule.wrong_of_name_stuck stopped
      exact .inl (.function bound function)
  | .list (.symbol f :: rest) =>
      simp only [Environment.form] at stopped
      split at stopped
      · rename_i op reserved
        obtain rfl := Operator.ofName?_eq_some_iff.1 reserved
        exact Operator.wrong_of_run_stuck env stopped
      · rename_i unreserved
        split at stopped
        · obtain ⟨b, bound, function, count, rfl⟩ := Rule.wrong_of_name_stuck stopped
          exact .inl (.arguments unreserved bound function count)
        · cases stopped

/-- The evaluation of an expression that fails at once, by any allowance but none. -/
theorem eval_of_failsAtOnce {m : Machine} {e : Expr} {cause : EvalError}
    (fails : m.env.FailsAtOnce e cause) (d : Nat) : eval (d + 1) e m = .error (.error cause) m :=
  fails d (eval d) m rfl

/-- **Malformed forms fail first.**  An expression has a wrong number of operands or arguments exactly if
it fails at once by an arity error, and is a definition with something in a wrong place exactly if it
fails at once by a type mismatch: on the machine as it is, whatever its parts would do.  So its
evaluation prints nothing, calls nothing and leaves every frame as it was; one nested evaluation is
enough, and more of them make no difference. -/
theorem malformed_fails_first (env : Environment) (e : Expr) (cause : EvalError) :
    (env.WrongCount e cause ↔ cause.kind = .arity ∧ env.FailsAtOnce e cause) ∧
    (e.WrongShape cause ↔ cause.kind = .typeMismatch ∧ env.FailsAtOnce e cause) ∧
    (env.FailsAtOnce e cause →
      (∀ (d : Nat) (m : Machine), m.env = env → eval (d + 1) e m = .error (.error cause) m) ∧
      ∀ allowed : Session.Allowance, 0 < allowed.evaluations → Session.evaluate allowed env e =
        ⟨.error (.eval cause), env, [], [.evaluationFailed cause]⟩) := by
  refine ⟨⟨fun count => ⟨count.kind, count.failsAtOnce⟩, ?_⟩,
    ⟨fun shape => ⟨shape.kind, shape.failsAtOnce env⟩, ?_⟩, fun fails => ⟨?_, ?_⟩⟩
  · rintro ⟨kind, fails⟩
    rcases fails.wrong with count | shape | scope
    · exact count
    · cases kind.symm.trans shape.kind
    · cases kind.symm.trans scope
  · rintro ⟨kind, fails⟩
    rcases fails.wrong with count | shape | scope
    · cases kind.symm.trans count.kind
    · exact shape
    · cases kind.symm.trans scope
  · rintro d m rfl
    exact eval_of_failsAtOnce fails d
  · intro allowed enough
    obtain ⟨d, depth⟩ : ∃ d, allowed.evaluations = d + 1 := Nat.exists_eq_add_of_le' enough
    have failed : eval (d + 1) e (.start env) = .error (.error cause) (.start env) :=
      eval_of_failsAtOnce fails d
    rw [Session.evaluate, depth, failed]
    rfl

/-- `(f (print a))` for a function with two parameters, `(if (print a) ((let x 1)))` and
`(fn g (x 1) (print a))` print and bind nothing. -/
theorem malformed_fails_first_in_three_ways :
    let env : Environment := Environment.default.push ⟨[("f", ⟨["x", "y"], .symbol "x"⟩)]⟩
    let printing : Expr := .operation .print [.symbol "a"]
    let call : Expr := .list [.symbol "f", printing]
    let condition : Expr := .operation .conditional
      [printing, .list [.operation .defineVariable [.symbol "x", .number 1]]]
    let definition : Expr :=
      .operation .defineFunction [.symbol "g", .list [.symbol "x", .number 1], printing]
    let allowed : Session.Allowance := ⟨3, 1⟩
    env.WrongCount call (.argumentCount "f" 1 2) ∧
    env.WrongCount condition (.operandCount .conditional) ∧ definition.WrongShape .parameterShape ∧
    Session.evaluate allowed env call =
      ⟨.error (.eval (.argumentCount "f" 1 2)), env, [], [.evaluationFailed (.argumentCount "f" 1 2)]⟩ ∧
    Session.evaluate allowed env condition =
      ⟨.error (.eval (.operandCount .conditional)), env, [],
        [.evaluationFailed (.operandCount .conditional)]⟩ ∧
    Session.evaluate allowed env definition =
      ⟨.error (.eval .parameterShape), env, [], [.evaluationFailed .parameterShape]⟩ := by
  intro env printing call condition definition allowed
  have bound : env.lookup "f" = some ⟨["x", "y"], .symbol "x"⟩ := rfl
  have arguments : env.WrongCount call (.argumentCount "f" 1 2) := .arguments rfl bound rfl (by decide)
  have operands : env.WrongCount condition (.operandCount .conditional) := .operands rfl
  have member : Expr.number 1 ∈ [Expr.symbol "x", .number 1] := by simp
  have parameter : definition.WrongShape .parameterShape := .parameter member rfl
  obtain ⟨⟨atOnce, -⟩, -, fails⟩ := malformed_fails_first env call (.argumentCount "f" 1 2)
  obtain ⟨⟨atOnce', -⟩, -, fails'⟩ := malformed_fails_first env condition (.operandCount .conditional)
  obtain ⟨-, ⟨atOnce'', -⟩, fails''⟩ := malformed_fails_first env definition .parameterShape
  have one : 0 < allowed.evaluations := by decide
  exact ⟨arguments, operands, parameter, (fails (atOnce arguments).2).2 allowed one,
    (fails' (atOnce' operands).2).2 allowed one, (fails'' (atOnce'' parameter).2).2 allowed one⟩

end DynLisp
