import DynLisp.Machine

/-! # The rules that bind names

Definitions bind a name in the innermost frame and have no value.  A variable is bound to a value, a
function to its parameters and its body as written; without parameters it is a variable. -/

namespace DynLisp.Rule

/-- `(let name expr)`. -/
def defineVariable (d : Nat) (ev : Evaluator) : List Expr → Eval Outcome
  | [.symbol name, definition] => do
    let value ← ev.valueOf d definition .unitBound
    Eval.bindName name (.ofValue value)
    return .unit
  | [_, _] => Eval.fail d .variableShape
  | _ => Eval.fail d (.operandCount .defineVariable)

/-- `(fn name (params …) body)`. -/
def defineFunction (d : Nat) : List Expr → Eval Outcome
  | [.symbol name, .list params, body] =>
    match params.mapM Expr.name? with
    | some names => do
      Eval.bindName name ⟨names, body⟩
      return .unit
    | none => Eval.fail d .parameterShape
  | [_, _, _] => Eval.fail d .functionShape
  | _ => Eval.fail d (.operandCount .defineFunction)

end DynLisp.Rule
