import DynLisp.Rule.Arithmetic
import DynLisp.Rule.Control
import DynLisp.Rule.Definition
import DynLisp.Rule.Verdict

/-! # Evaluation

The environment decides which form an expression has, and each form has a rule:

* a number and the empty list stand for themselves;
* a symbol is a name without arguments;
* a list that begins with a reserved name is an operation, one that begins with a bound name is that
  name with arguments, and any other is a list of items.

`eval` follows the rules with an allowance of nested evaluations. -/

namespace DynLisp

/-- What an expression is in an environment. -/
inductive Form where
  /-- It stands for itself. -/
  | constant (e : Expr)
  /-- A reserved operator with its operands. -/
  | operation (op : Operator) (operands : List Expr)
  /-- A name with the arguments after it. -/
  | name (name : String) (args : List Expr)
  /-- Several expressions. -/
  | items (es : List Expr)

/-- The form of an expression. -/
def Environment.form (env : Environment) : Expr → Form
  | .number x => .constant (.number x)
  | .symbol name => .name name []
  | .list [] => .constant (.list [])
  | .list (.symbol name :: rest) =>
    match Operator.ofName? name with
    | some op => .operation op rest
    | none => if env.contains name then .name name rest else .items (.symbol name :: rest)
  | .list es => .items es

/-- The rule of a reserved operator. -/
def Operator.run (d : Nat) (ev : Evaluator) : Operator → List Expr → Eval Outcome
  | arithmetic op => Rule.arithmetic d ev op
  | equal => Rule.comparison d ev .equal false
  | notEqual => Rule.comparison d ev .notEqual true
  | negation => Rule.negation d ev
  | conjunction => Rule.conjunction d
  | disjunction => Rule.disjunction d
  | defineFunction => Rule.defineFunction d
  | defineVariable => Rule.defineVariable d ev
  | print => Rule.print d
  | conditional => Rule.conditional d ev

/-- The rule of a form. -/
def Form.run (d : Nat) (ev : Evaluator) : Form → Eval Outcome
  | constant e => return .value e
  | operation op operands => op.run d ev operands
  | name x args => Rule.name d ev x args
  | items es => Rule.items ev es

/-- Evaluates an expression by at most `d` nested evaluations. -/
def eval : Nat → Expr → Eval Outcome
  | 0, _ => Eval.exhaust
  | d + 1, e => do
    let env ← Eval.environment
    (env.form e).run d (eval d)

end DynLisp
