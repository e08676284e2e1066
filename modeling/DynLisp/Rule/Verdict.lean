import DynLisp.Machine

/-! # The rules that give verdicts

* `=` and `!=` compare the values of their operands with the value of the first.
* `and` compares the operands as they are written with the first of them, `or` looks for the symbol
  of the true verdict among them; neither evaluates anything.
* `not` evaluates its operand, but judges it as it is written: a verdict is turned into the other,
  and a list gives the verdict on its own items being the same. -/

namespace DynLisp.Rule

def verdictOf (flag : Bool) : Outcome :=
  .value (.verdict flag)

/-- `(= a b …)`, and with `flip` its opposite `(!= a b …)`. -/
def comparison (d : Nat) (ev : Evaluator) (op : Operator) (flip : Bool) :
    List Expr → Eval Outcome
  | [] => Eval.fail d (.operandCount op)
  | operands => do
    let values ← operands.mapM fun operand => ev.valueOf d operand .unitCompared
    let same ← Eval.ofOption (Expr.allSameWithin d values)
    return verdictOf (same != flip)

/-- `(and a b …)`. -/
def conjunction (d : Nat) : List Expr → Eval Outcome
  | [] => Eval.fail d (.operandCount .conjunction)
  | first :: rest => do
    let same ← Eval.ofOption ((first :: rest).allM (first.sameWithin d))
    return verdictOf same

/-- `(or a b …)`. -/
def disjunction (d : Nat) : List Expr → Eval Outcome
  | [] => Eval.fail d (.operandCount .disjunction)
  | operands => return verdictOf (operands.any (·.same (.verdict true)))

/-- What `not` makes of an operand as written. -/
def opposite (d : Nat) (operand : Expr) : Eval Outcome :=
  match operand with
  | .symbol name =>
    if name = Expr.verdictName true then return verdictOf false
    else if name = Expr.verdictName false then return verdictOf true
    else Eval.fail d (.notAVerdict operand)
  | .list items => do return verdictOf (← Eval.ofOption (Expr.allSameWithin d items))
  | .number _ => Eval.fail d (.notAVerdict operand)

/-- `(not a)`. -/
def negation (d : Nat) (ev : Evaluator) : List Expr → Eval Outcome
  | [operand] => do
    let _ ← ev operand
    opposite d operand
  | _ => Eval.fail d (.operandCount .negation)

end DynLisp.Rule
