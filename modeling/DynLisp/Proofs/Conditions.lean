import DynLisp.Proofs.Vocabulary

/-! # Verdicts as conditions

The operators that compare and judge give a verdict, which is a symbol.  A condition chooses its first
branch for every value but the empty list, so a verdict chooses it whichever verdict it is.

* `Operator.run_givesVerdict`: these operators give a verdict if they give anything.
* `eval_conditional`: after a condition with a value, the branch it chooses is evaluated and then the
  first one.
* `eval_verdict_bound`: where a verdict is written as a condition, it is a variable and stands for a
  list.  So the false one chooses the second branch where it is written, and does not where it is
  computed. -/

namespace DynLisp

namespace Expr

/-- An operator with its operands. -/
def operation (op : Operator) (operands : List Expr) : Expr :=
  list (symbol op.name :: operands)

/-- `(if condition first second)`. -/
def conditional (condition first second : Expr) : Expr :=
  operation .conditional [condition, first, second]

/-- What a verdict stands for as long as it is not bound anew. -/
def verdictValue (flag : Bool) : Expr :=
  list (if flag then [number 1] else [])

end Expr

theorem Environment.lookup_default (flag : Bool) :
    default.lookup (Expr.verdictName flag) = some (.ofValue (Expr.verdictValue flag)) := by
  cases flag <;> rfl

theorem Environment.form_operation (env : Environment) (op : Operator) (operands : List Expr) :
    env.form (.operation op operands) = .operation op operands := by
  have reserved : Operator.ofName? op.name = some op := Operator.ofName?_eq_some_iff.2 rfl
  simp only [Expr.operation, form, reserved]

theorem eval_operation (d : Nat) (op : Operator) (operands : List Expr) (m : Machine) :
    eval (d + 1) (.operation op operands) m = op.run d (eval d) operands m := by
  show (m.env.form (.operation op operands)).run d (eval d) m = _
  rw [m.env.form_operation]
  rfl

/-! ### Operators that give verdicts -/

/-- The operators whose value is a verdict. -/
def Operator.givesVerdict : Operator → Bool
  | equal | notEqual | negation | conjunction | disjunction => true
  | _ => false

/-- Computations whose value, if they have one, is a verdict. -/
abbrev GivesVerdict (x : Eval Outcome) : Prop :=
  x.Preserves (fun _ => True) fun outcome => ∃ flag, outcome = Rule.verdictOf flag

namespace Rule

open Eval

theorem givesVerdict_verdictOf (flag : Bool) : GivesVerdict (pure (verdictOf flag)) :=
  preserves_pure ⟨flag, rfl⟩

theorem preserves_true {α : Type} (x : Eval α) : x.Preserves (fun _ => True) fun _ => True := by
  intro m _
  cases x m <;> simp

theorem givesVerdict_bind {α : Type} {x : Eval α} {f : α → Eval Outcome}
    (hf : ∀ a, GivesVerdict (f a)) : GivesVerdict (x >>= f) :=
  (preserves_true x).bind fun a _ => hf a

variable (d : Nat) (ev : Evaluator) (operands : List Expr)

theorem givesVerdict_comparison (op : Operator) (flip : Bool) :
    GivesVerdict (comparison d ev op flip operands) := by
  cases operands with
  | nil => exact preserves_fail d (.operandCount op) _
  | cons first rest =>
      apply givesVerdict_bind
      intro values
      exact givesVerdict_bind fun same => givesVerdict_verdictOf (same != flip)

theorem givesVerdict_conjunction : GivesVerdict (conjunction d operands) := by
  cases operands with
  | nil => exact preserves_fail d (.operandCount .conjunction) _
  | cons first rest => exact givesVerdict_bind fun same => givesVerdict_verdictOf same

theorem givesVerdict_disjunction : GivesVerdict (disjunction d operands) := by
  cases operands with
  | nil => exact preserves_fail d (.operandCount .disjunction) _
  | cons first rest => exact givesVerdict_verdictOf _

theorem givesVerdict_opposite (operand : Expr) : GivesVerdict (opposite d operand) := by
  cases operand with
  | number x => exact preserves_fail d (.notAVerdict (.number x)) _
  | symbol name =>
      simp only [opposite]
      split
      · exact givesVerdict_verdictOf false
      split
      · exact givesVerdict_verdictOf true
      · exact preserves_fail d _ _
  | list items => exact givesVerdict_bind fun same => givesVerdict_verdictOf same

theorem givesVerdict_negation : GivesVerdict (negation d ev operands) := by
  unfold negation
  split
  · exact givesVerdict_bind fun _ => givesVerdict_opposite d _
  · exact preserves_fail d _ _

end Rule

theorem Operator.run_givesVerdict {op : Operator} (h : op.givesVerdict) (d : Nat) (ev : Evaluator)
    (operands : List Expr) : GivesVerdict (op.run d ev operands) := by
  cases op with
  | equal => exact Rule.givesVerdict_comparison d ev operands .equal false
  | notEqual => exact Rule.givesVerdict_comparison d ev operands .notEqual true
  | negation => exact Rule.givesVerdict_negation d ev operands
  | conjunction => exact Rule.givesVerdict_conjunction d operands
  | disjunction => exact Rule.givesVerdict_disjunction d operands
  | arithmetic _ | defineFunction | defineVariable | print | conditional => cases h

/-- What an operation with such an operator evaluates to is a verdict. -/
theorem exists_verdict_of_eval {op : Operator} (h : op.givesVerdict) {d : Nat}
    {operands : List Expr} {m m' : Machine} {outcome : Outcome}
    (he : eval d (.operation op operands) m = .ok outcome m') :
    ∃ flag, outcome = Rule.verdictOf flag := by
  cases d with
  | zero => cases he
  | succ d =>
      rw [eval_operation] at he
      have gives := op.run_givesVerdict h d (eval d) operands m trivial
      rw [he] at gives
      exact gives.2

/-! ### Conditions -/

/-- The branch that a value chooses, then the first one. -/
def Eval.branches (d : Nat) (value first second : Expr) : Eval Outcome := do
  let _ ← eval d (if value.isEmptyList then second else first)
  eval d first

theorem eval_conditional {d : Nat} {condition : Expr} {m m' : Machine} {value : Expr}
    (h : eval d condition m = .ok (.value value) m') (first second : Expr) :
    eval (d + 1) (.conditional condition first second) m = Eval.branches d value first second m' := by
  have given : Evaluator.valueOf (eval d) d condition .unitCondition m = .ok value m' :=
    Evaluator.valueOf_of_value h d .unitCondition
  rw [Expr.conditional, eval_operation]
  show Rule.conditional d (eval d) [condition, first, second] m = _
  rw [Rule.conditional, Eval.bind_of_ok given]
  rfl

/-- A symbol is looked up: it stands for itself, or for what its variable evaluates to. -/
theorem eval_symbol (d : Nat) (name : String) (m : Machine) :
    eval (d + 1) (.symbol name) m = Rule.name d (eval d) name [] m := rfl

theorem eval_symbol_unbound {d : Nat} {name : String} {m : Machine} (h : m.env.lookup name = none) :
    eval (d + 1) (.symbol name) m = .ok (.value (.symbol name)) m := by
  rw [eval_symbol, Rule.name, Eval.environment_bind, h]
  rfl

theorem eval_symbol_variable {d : Nat} {name : String} {body : Expr} {m : Machine}
    (h : m.env.lookup name = some (.ofValue body)) :
    eval (d + 1) (.symbol name) m = eval d body m := by
  rw [eval_symbol, Rule.name_of_lookup h]
  rfl

theorem eval_verdictValue (d : Nat) (flag : Bool) (m : Machine) :
    eval (d + 2) (.verdictValue flag) m = .ok (.value (.verdictValue flag)) m := by
  cases flag <;> rfl

/-- A verdict that is bound as in the beginning evaluates to its list. -/
theorem eval_verdict_bound (d : Nat) {flag : Bool} {m : Machine}
    (h : m.env.lookup (Expr.verdictName flag) = some (.ofValue (.verdictValue flag))) :
    eval (d + 3) (.verdict flag) m = .ok (.value (.verdictValue flag)) m := by
  rw [Expr.verdict, eval_symbol_variable h, eval_verdictValue]

/-- The true verdict, bound as in the beginning or not at all, chooses the first branch. -/
theorem branches_verdict_true (d : Nat) {m : Machine}
    (h : ∀ b ∈ m.env.lookup (Expr.verdictName true), b = .ofValue (.verdictValue true))
    (first second : Expr) :
    eval (d + 4) (.conditional (.verdict true) first second) m =
      Eval.branches (d + 3) (.verdict true) first second m := by
  cases bound : m.env.lookup (Expr.verdictName true) with
  | none => exact eval_conditional (eval_symbol_unbound bound) first second
  | some b =>
      obtain rfl := h b bound
      exact eval_conditional (eval_verdict_bound d bound) first second

/-- **Verdicts as conditions.**  An operation that compares or judges gives a verdict, and as a
condition either verdict has the first branch evaluated twice and the second one never.  Where the
true verdict still stands for what it stood for in the beginning, this is what it does itself as a
condition; the false verdict as a condition has the second branch evaluated, then the first. -/
theorem conditional_of_verdict {op : Operator} (h : op.givesVerdict) {operands : List Expr} {d : Nat}
    {m m' : Machine} {outcome : Outcome}
    (he : eval d (.operation op operands) m = .ok outcome m') (first second : Expr) :
    (∃ flag, outcome = Rule.verdictOf flag) ∧
    eval (d + 1) (.conditional (.operation op operands) first second) m =
      (do let _ ← eval d first
          eval d first : Eval Outcome) m' ∧
    (3 ≤ d →
      (∀ b ∈ m'.env.lookup (Expr.verdictName true), b = .ofValue (.verdictValue true)) →
      eval (d + 1) (.conditional (.operation op operands) first second) m =
        eval (d + 1) (.conditional (.verdict true) first second) m') ∧
    (3 ≤ d → m'.env.lookup (Expr.verdictName false) = some (.ofValue (.verdictValue false)) →
      eval (d + 1) (.conditional (.verdict false) first second) m' =
        (do let _ ← eval d second
            eval d first : Eval Outcome) m') := by
  obtain ⟨flag, rfl⟩ := exists_verdict_of_eval h he
  have chosen : eval (d + 1) (.conditional (.operation op operands) first second) m =
      Eval.branches d (.verdict flag) first second m' := eval_conditional he first second
  refine ⟨⟨flag, rfl⟩, chosen, ?_, ?_⟩
  · intro enough bound
    obtain ⟨d, rfl⟩ := Nat.exists_eq_add_of_le' enough
    rw [chosen, branches_verdict_true d bound]
    rfl
  · intro enough bound
    obtain ⟨d, rfl⟩ := Nat.exists_eq_add_of_le' enough
    exact eval_conditional (eval_verdict_bound d bound) first second

/-- With `(= 1 2)` as condition, a print form is evaluated twice, as it is with `True`. -/
theorem conditional_of_unequal :
    Operator.equal.givesVerdict ∧
    eval 3 (.operation .equal [.number 1, .number 2]) (.start .default) =
      .ok (Rule.verdictOf false) (.start .default) ∧
    eval 4 (.conditional (.operation .equal [.number 1, .number 2])
        (.operation .print [.symbol "then"]) (.operation .print [.symbol "else"])) (.start .default) =
      eval 4 (.conditional (.verdict true)
        (.operation .print [.symbol "then"]) (.operation .print [.symbol "else"]))
          (.start .default) := by
  have compared : eval 3 (.operation .equal [.number 1, .number 2]) (.start .default) =
      .ok (Rule.verdictOf false) (.start .default) := rfl
  have bound : ∀ b ∈ Environment.default.lookup (Expr.verdictName true),
      b = .ofValue (.verdictValue true) :=
    fun b h => Option.some.inj (h.symm.trans (Environment.lookup_default true))
  exact ⟨rfl, compared, (conditional_of_verdict rfl compared _ _).2.2.1 (by decide) bound⟩

/-- The false verdict chooses the second branch where it is written and the first where it is computed;
and the true verdict chooses the first where it is computed, also if the condition has bound its name
to the empty list. -/
theorem computed_verdict_is_no_written_one :
    (eval 3 (.operation .equal [.number 1, .number 2]) (.start .default) =
        .ok (Rule.verdictOf false) (.start .default) ∧
      ((eval 4 (.conditional (.operation .equal [.number 1, .number 2])
        (.operation .print [.symbol "then"]) (.operation .print [.symbol "else"]))).after
          (.start .default)).printed = #["then", "then"] ∧
      ((eval 4 (.conditional (.verdict false)
        (.operation .print [.symbol "then"]) (.operation .print [.symbol "else"]))).after
          (.start .default)).printed = #["else", "then"]) ∧
    ∃ m, eval 5 (.operation .equal
          [.list [.operation .defineVariable [.verdict true, .list []]], .list []]) (.start .default) =
        .ok (Rule.verdictOf true) m ∧
      ((eval 6 (.conditional (.operation .equal
          [.list [.operation .defineVariable [.verdict true, .list []]], .list []])
        (.operation .print [.symbol "then"]) (.operation .print [.symbol "else"]))).after
          (.start .default)).printed = #["then", "then"] ∧
      ((eval 6 (.conditional (.verdict true)
        (.operation .print [.symbol "then"]) (.operation .print [.symbol "else"]))).after
          m).printed = #["else", "then"] := by
  refine ⟨⟨rfl, by decide +kernel, by decide +kernel⟩, _, rfl, by decide +kernel, by decide +kernel⟩

end DynLisp
