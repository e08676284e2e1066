import DynLisp.EvalError
import DynLisp.Expr.Same
import DynLisp.Rendering

/-! # The state of an evaluation

An evaluation changes an environment, prints lines and calls functions.  It ends with an outcome or
a failure, and what it has done until then stays done in both cases.

Nested calls are limited: every evaluation, comparison, rendering and writing of an expression has
an allowance `d`, and each of its parts has one less.  Where nothing is left the evaluation fails by
exhaustion, which no rule turns into anything else. -/

namespace DynLisp

/-- A value, or none where an expression is evaluated for its effect only. -/
inductive Outcome where
  | value (e : Expr)
  | unit
deriving Inhabited

/-- How an evaluation fails. -/
inductive Failure where
  | error (e : EvalError)
  /-- The allowance of nested calls is used up. -/
  | exhausted

/-- A call of a function with so many arguments. -/
structure Call where
  function : String
  arguments : Nat

/-- What an evaluation changes. -/
structure Machine where
  env : Environment
  /-- The lines printed. -/
  printed : Array String
  /-- The functions called. -/
  calls : Array Call

/-- A machine before anything is evaluated. -/
def Machine.start (env : Environment) : Machine := ⟨env, #[], #[]⟩

/-- Evaluations: they fail or give a result, and leave a machine in either case. -/
abbrev Eval := EStateM Failure Machine

namespace Eval

/-- Fails for want of nested calls. -/
def exhaust {α : Type} : Eval α := throw .exhausted

/-- The result of a computation with limited depth. -/
def ofOption {α : Type} : Option α → Eval α
  | some a => pure a
  | none => exhaust

/-- Fails by an error, whose message is written at once. -/
def fail {α : Type} (d : Nat) (e : EvalError) : Eval α :=
  match e.shown? with
  | some shown =>
    match shown.sourceWithin d with
    | some _ => throw (.error e)
    | none => exhaust
  | none => throw (.error e)

/-- The environment at this point. -/
def environment : Eval Environment := fun m => .ok m.env m

/-- Prints a line. -/
def printLine (line : String) : Eval Unit := fun m =>
  .ok () { m with printed := m.printed.push line }

/-- Notes that a function is called. -/
def noteCall (function : String) (arguments : Nat) : Eval Unit := fun m =>
  .ok () { m with calls := m.calls.push ⟨function, arguments⟩ }

/-- Binds a name in the innermost frame. -/
def bindName (name : String) (b : Binding) : Eval Unit := fun m =>
  match m.env.bind name b with
  | .ok env => .ok () { m with env := env }
  | .error cause => .error (.error (.scope cause)) m

/-- Evaluates with one more frame, which is dropped at the end and after a failure. -/
def within {α : Type} (f : Frame) (body : Eval α) : Eval α := fun m =>
  match body { m with env := m.env.push f } with
  | .ok a m => .ok a { m with env := m.env.dropInnermost }
  | .error e m => .error e { m with env := m.env.dropInnermost }

end Eval

/-- A way to evaluate the parts of an expression. -/
abbrev Evaluator := Expr → Eval Outcome

/-- The value of an expression that has to have one. -/
def Evaluator.valueOf (ev : Evaluator) (d : Nat) (e : Expr) (noValue : EvalError) : Eval Expr := do
  match ← ev e with
  | .value v => return v
  | .unit => Eval.fail d noValue

end DynLisp
