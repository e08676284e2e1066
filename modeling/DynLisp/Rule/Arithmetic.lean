import DynLisp.Machine

/-! # The rule of the arithmetic operators

All operands are evaluated, from left to right, and must be numbers.  The operation then folds them
from the left, so that a single operand stays as it is. -/

namespace DynLisp

namespace Arithmetic

/-- Division of binary64 numbers.  A zero divisor gives NaN for a zero or NaN dividend, and
otherwise an infinity whose sign is the product of the signs. -/
def divide (a b : Float) : Float :=
  if b == 0 then
    if a == 0 || a.isNaN then Binary64.nan
    else Binary64.infinity (Binary64.isNegative a != Binary64.isNegative b)
  else a / b

/-- The operation on two numbers. -/
def combine : Arithmetic → Float → Float → Float
  | sum, a, b => a + b
  | difference, a, b => a - b
  | product, a, b => a * b
  | quotient, a, b => divide a b

end Arithmetic

namespace Rule

/-- The number that an operand evaluates to. -/
def operandNumber (d : Nat) (ev : Evaluator) (op : Arithmetic) (operand : Expr) : Eval Float := do
  match ← ev.valueOf d operand (.unitOperand operand) with
  | .number x => return x
  | value => Eval.fail d (.notANumber op value)

/-- `(+ a b …)`, `(- a b …)`, `(* a b …)`, `(/ a b …)`. -/
def arithmetic (d : Nat) (ev : Evaluator) (op : Arithmetic) : List Expr → Eval Outcome
  | [] => Eval.fail d (.operandCount (.arithmetic op))
  | first :: rest => do
    let x ← operandNumber d ev op first
    let xs ← rest.mapM (operandNumber d ev op)
    return .value (.number (xs.foldl op.combine x))

end Rule
end DynLisp
