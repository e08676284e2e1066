import DynLisp.Machine

/-! # The rules of conditions, printing, lists and names

* A condition chooses a branch, which is evaluated for its effect; then the first branch is
  evaluated, for the value of the whole.
* Printing renders all operands, then prints them on one line.
* A list evaluates its items and keeps the values.
* A name stands for itself if it is not bound, for what its variable evaluates to, or for a call of
  its function. -/

namespace DynLisp.Rule

/-- `(if condition first second)`. -/
def conditional (d : Nat) (ev : Evaluator) : List Expr → Eval Outcome
  | [condition, first, second] => do
    let value ← ev.valueOf d condition .unitCondition
    let _ ← ev (if value.isEmptyList then second else first)
    ev first
  | _ => Eval.fail d (.operandCount .conditional)

/-- `(print a b …)`. -/
def print (d : Nat) (operands : List Expr) : Eval Outcome := do
  let env ← Eval.environment
  let texts ← Eval.ofOption (operands.mapM (env.render d))
  Eval.printLine (" ".intercalate texts)
  return .unit

/-- The values among some outcomes. -/
def values : List Outcome → List Expr
  | [] => []
  | .value v :: rest => v :: values rest
  | .unit :: rest => values rest

/-- `(a b …)` without a rule of its own. -/
def items (ev : Evaluator) (es : List Expr) : Eval Outcome := do
  let outcomes ← es.mapM ev
  return .value (.list (values outcomes))

/-- `(f a b …)` for a function `f`: the arguments are evaluated where the call stands, then the body
with a new frame that binds the parameters to them. -/
def call (d : Nat) (ev : Evaluator) (name : String) (b : Binding) (args : List Expr) :
    Eval Outcome := do
  if args.length = b.params.length then
    let values ← args.mapM fun arg => ev.valueOf d arg .unitArgument
    Eval.noteCall name values.length
    Eval.within (.ofValues (b.params.zip values)) (ev b.body)
  else Eval.fail d (.argumentCount name args.length b.params.length)

/-- A name, or a list that begins with it. -/
def name (d : Nat) (ev : Evaluator) (name : String) (args : List Expr) : Eval Outcome := do
  match (← Eval.environment).lookup name with
  | none => return .value (.symbol name)
  | some b => if b.isFunction then call d ev name b args else ev b.body

end DynLisp.Rule
