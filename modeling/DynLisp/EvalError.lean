import DynLisp.Environment
import DynLisp.Operator

/-! # Errors of evaluation

Each constructor is one cause.  The causes fall into four kinds: a wrong number of operands, an
operand of the wrong shape, a missing value, and a missing frame. -/

namespace DynLisp

/-- The kinds of errors. -/
inductive EvalErrorKind where
  | arity
  | typeMismatch
  | unitValue
  | scope
deriving DecidableEq, Repr

/-- Why an evaluation fails. -/
inductive EvalError where
  /-- A reserved operator has too few or too many operands. -/
  | operandCount (op : Operator)
  /-- A function has too few or too many arguments. -/
  | argumentCount (function : String) (given expected : Nat)
  /-- An operand of an arithmetic operator has this value, which is no number. -/
  | notANumber (op : Arithmetic) (value : Expr)
  /-- An operand whose negation is asked for is neither a verdict nor a list. -/
  | notAVerdict (operand : Expr)
  /-- What a variable definition binds is not a symbol. -/
  | variableShape
  /-- A function definition binds no symbol or has no parameter list. -/
  | functionShape
  /-- A parameter is not a symbol. -/
  | parameterShape
  /-- This operand of an arithmetic operator has no value. -/
  | unitOperand (operand : Expr)
  /-- An operand of a comparison has no value. -/
  | unitCompared
  /-- A variable is defined by an expression without value. -/
  | unitBound
  /-- A condition has no value. -/
  | unitCondition
  /-- An argument of a function has no value. -/
  | unitArgument
  | scope (cause : ScopeError)

namespace EvalError

def kind : EvalError → EvalErrorKind
  | operandCount _ | argumentCount .. => .arity
  | notANumber .. | notAVerdict _ | variableShape | functionShape | parameterShape => .typeMismatch
  | unitOperand _ | unitCompared | unitBound | unitCondition | unitArgument => .unitValue
  | scope _ => .scope

def functionUsage : String :=
  "Function definitions must follow the pattern (fn fn-name (arg1 arg2 arg3 .. argn) <Expr>)"

/-- What is said of a wrong number of operands. -/
def operandCountMessage : Operator → String
  | .arithmetic op => "Must perform " ++ op.noun ++ " on at least one number"
  | .negation => "not requires exactly 1 argument"
  | .defineFunction => functionUsage
  | .defineVariable => "Invalid variable definition. Should look like (let someVar someExpr)"
  | .conditional => "Must have format: if (<argument>) (<then block>) (<else block>)"
  | op => "'" ++ op.name ++ "' with no arguments"

def message : EvalError → String
  | operandCount op => operandCountMessage op
  | argumentCount function given expected =>
    function ++ ": provided " ++ toString given ++ " arguments but expected " ++ toString expected
  | notANumber op value => "Can only " ++ op.verb ++ " numbers, got " ++ value.source
  | notAVerdict operand => "Invalid input for not operator: " ++ operand.source
  | variableShape =>
    "Second element of variable def must be a symbol and third must be expression."
  | functionShape => functionUsage
  | parameterShape => "Function parameters must be symbols."
  | unitOperand operand => "Failed to eval expr: " ++ operand.source
  | unitCompared => "Failed to eval, got Unit"
  | unitBound => "cannot assign Unit to a variable."
  | unitCondition => "If expression predicate must return an expression."
  | unitArgument => "Cannot pass Unit as an argument to a function."
  | scope cause => cause.message

/-- The expression whose source form the message shows. -/
def shown? : EvalError → Option Expr
  | notANumber _ e | notAVerdict e | unitOperand e => some e
  | _ => none

end EvalError
end DynLisp
