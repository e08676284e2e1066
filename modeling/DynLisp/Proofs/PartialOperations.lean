import DynLisp.Proofs.Number.Layout
import DynLisp.Session
import DynLisp.Text.Stream

/-! # Evaluation by partial operations

Evaluation rests on operations that are defined in some cases only: the first item of a list, a
division, the removal of a frame.  The rules check first, some of them in another place, and rely on the
check.  Here the rules are spelled out in this way, and every operation outside its domain is a `Fault`,
which no rule catches.

* Frames are marked by the number of the push that made them, and a call removes the frame with the mark
  of its own push (`withFrame`).
* Numbers are written by laying out the digits of their scientific notation anew, which takes a power of
  ten that is an integer (`plain`).
* Lines are printed to an output stream, which may refuse them (`printLine`).
* `Guarded.eval` and `Guarded.evaluate` are evaluation by these rules. -/

namespace DynLisp

/-- A partial operation outside its domain. -/
inductive Fault where
  /-- A fold that has nothing to begin with. -/
  | emptyFold
  /-- The first item of no items. -/
  | noFirstItem
  /-- Items taken apart into another number of items. -/
  | wrongCount
  | notANumber
  | notASymbol
  | notAList
  /-- The rule of a name that is not reserved. -/
  | noRule
  | divisionByZero
  /-- The innermost frame where there is none. -/
  | noFrame
  /-- The removal of a frame by another call than the one that pushed it. -/
  | foreignFrame
  /-- A power of ten that is no integer. -/
  | notAnInteger
  /-- A line that the output stream refuses. -/
  | unwritable (line : String)

/-- Why an evaluation by partial operations has no outcome. -/
inductive Stop where
  | failure (f : Failure)
  | fault (f : Fault)

/-- A machine whose frames carry the numbers of the pushes that made them, and whose output stream has
taken all that is printed. -/
structure MarkedMachine (out : Stream) where
  stack : List (Nat × Frame)
  /-- The number of the next push. -/
  next : Nat
  fresh : ∀ entry ∈ stack, entry.1 < next
  printed : Array String
  written : ∀ line ∈ printed, out.writes line
  calls : Array Call

namespace MarkedMachine

variable {out : Stream}

def machine (s : MarkedMachine out) : Machine :=
  ⟨⟨s.stack.map (·.2)⟩, s.printed, s.calls⟩

def marks (s : MarkedMachine out) : List Nat :=
  s.stack.map (·.1)

/-- The frames of an environment count as made by one push. -/
def start (env : Environment) : MarkedMachine out where
  stack := env.frames.map (0, ·)
  next := 1
  fresh := by simp
  printed := #[]
  written := by simp
  calls := #[]

end MarkedMachine

/-- Evaluations by partial operations, with this output stream. -/
abbrev Guarded (out : Stream) := EStateM Stop (MarkedMachine out)

namespace Guarded

variable {out : Stream} {α : Type}

def fault (f : Fault) : Guarded out α := throw (.fault f)

/-! ### Operations -/

/-- Folds from the first element on. -/
def reduce (op : α → α → Guarded out α) : List α → Guarded out α
  | [] => fault .emptyFold
  | a :: as => as.foldlM op a

def first : List α → Guarded out α
  | [] => fault .noFirstItem
  | a :: _ => pure a

def two : List α → Guarded out (α × α)
  | [a, b] => pure (a, b)
  | _ => fault .wrongCount

def three : List α → Guarded out (α × α × α)
  | [a, b, c] => pure (a, b, c)
  | _ => fault .wrongCount

def numberOf : Expr → Guarded out Float
  | .number x => pure x
  | _ => fault .notANumber

def nameOf : Expr → Guarded out String
  | .symbol name => pure name
  | _ => fault .notASymbol

def itemsOf : Expr → Guarded out (List Expr)
  | .list items => pure items
  | _ => fault .notAList

def reserved (name : String) : Guarded out Operator :=
  match Operator.ofName? name with
  | some op => pure op
  | none => fault .noRule

def quotient (a b : Float) : Guarded out Float :=
  if b == 0 then fault .divisionByZero else pure (a / b)

/-- A frame without names, and its mark. -/
def pushFrame : Guarded out Nat := fun s =>
  .ok s.next
    { s with
      stack := (s.next, .empty) :: s.stack
      next := s.next + 1
      fresh := List.forall_mem_cons.2
        ⟨Nat.lt_succ_self _, fun entry h => Nat.lt_succ_of_lt (s.fresh entry h)⟩ }

/-- Removes the innermost frame, which has to have this mark. -/
def popFrame (mark : Nat) : Guarded out Unit := fun s =>
  match h : s.stack with
  | [] => .error (.fault .noFrame) s
  | (top, _) :: rest =>
    if top = mark then
      .ok () { s with stack := rest, fresh := fun entry hr => s.fresh entry (by simp [h, hr]) }
    else .error (.fault .foreignFrame) s

/-- Binds a name in the innermost frame. -/
def bindInnermost (name : String) (b : Binding) : Guarded out Unit := fun s =>
  match h : s.stack with
  | [] => .error (.fault .noFrame) s
  | (mark, f) :: rest =>
    .ok ()
      { s with
        stack := (mark, f.bind name b) :: rest
        fresh := List.forall_mem_cons.2 ⟨s.fresh (mark, f) (by simp [h]),
          fun entry hr => s.fresh entry (by simp [h, hr])⟩ }

/-! ### Failures and effects -/

def exhaust : Guarded out α := throw (.failure .exhausted)

def ofOption : Option α → Guarded out α
  | some a => pure a
  | none => exhaust

def environment : Guarded out Environment := fun s => .ok s.machine.env s

/-- Writes a line to the output stream. -/
def printLine (line : String) : Guarded out Unit := fun s =>
  if takes : out.writes line then
    .ok ()
      { s with
        printed := s.printed.push line
        written := fun other h => (Array.mem_push.1 h).elim (s.written other) (· ▸ takes) }
  else .error (.fault (.unwritable line)) s

def noteCall (function : String) (arguments : Nat) : Guarded out Unit := fun s =>
  .ok () { s with calls := s.calls.push ⟨function, arguments⟩ }

/-- Evaluates, then does something else, however the evaluation ends. -/
def ensuring (x : Guarded out α) (last : Guarded out Unit) : Guarded out α := fun s =>
  match x s with
  | .ok a s =>
    match last s with
    | .ok _ s => .ok a s
    | .error stop s => .error stop s
  | .error stop s =>
    match last s with
    | .ok _ s => .error stop s
    | .error stop s => .error stop s

/-! ### Writing -/

/-- The plain notation of a number. -/
def plain (x : Float) : Guarded out String :=
  if x.isNaN then pure "NaN"
  else if x.isInf then pure (if Binary64.isNegative x then "-inf" else "inf")
  else
    match Decimal.plainOfScientific? (Numeral.scientific x).toList with
    | some cs => pure (.ofList cs)
    | none => fault .notAnInteger

def render (env : Environment) : Nat → Expr → Guarded out String
  | 0, _ => exhaust
  | _ + 1, .number x => plain x
  | d + 1, .symbol name =>
    match env.lookup name with
    | none => return name
    | some b => if b.isFunction then return functionSign name else render env d b.body
  | d + 1, .list items => do
    let texts ← items.mapM (render env d)
    return "(" ++ " ".intercalate texts ++ ")"

mutual

/-- The source form of an expression. -/
def write : Expr → Guarded out String
  | .number x => plain x
  | .symbol name => return name
  | .list items => do return "(" ++ " ".intercalate (← writeItems items) ++ ")"

def writeItems : List Expr → Guarded out (List String)
  | [] => return []
  | item :: rest => do return (← write item) :: (← writeItems rest)

end

/-- The source form, by at most `d` nested calls. -/
def source (d : Nat) (e : Expr) : Guarded out String :=
  if e.nesting < d then write e else exhaust

/-- Fails by an error, after its message has been written. -/
def fail (d : Nat) (e : EvalError) : Guarded out α :=
  match e.shown? with
  | some shown => do
    let _ ← source d shown
    throw (.failure (.error e))
  | none => throw (.failure (.error e))

/-- Binds a name if there is a frame. -/
def bindName (name : String) (b : Binding) : Guarded out Unit := do
  if (← environment).frames.isEmpty then throw (.failure (.error (.scope .nothingToAddTo)))
  else bindInnermost name b

/-- Binds names one by one. -/
def bindAll : List (String × Expr) → Guarded out Unit
  | [] => return ()
  | (name, value) :: rest => do
    bindName name (.ofValue value)
    bindAll rest

/-- Evaluates with one more frame, which binds the names and is removed at the end. -/
def withFrame (pairs : List (String × Expr)) (body : Guarded out α) : Guarded out α := do
  let mark ← pushFrame
  ensuring
    (do
      bindAll pairs
      body)
    (popFrame mark)

/-! ### Rules -/

section

variable (d : Nat) (ev : Expr → Guarded out Outcome)

def valueOf (e : Expr) (noValue : EvalError) : Guarded out Expr := do
  match ← ev e with
  | .value v => return v
  | .unit => fail d noValue

def numericOperand (op : Arithmetic) (operand : Expr) : Guarded out Float := do
  let value ← valueOf d ev operand (.unitOperand operand)
  if value.isNumber then numberOf value else fail d (.notANumber op value)

def numericOperands (op : Arithmetic) (operands : List Expr) : Guarded out (List Float) :=
  if operands.isEmpty then fail d (.operandCount (.arithmetic op))
  else operands.mapM (numericOperand d ev op)

def divide (a b : Float) : Guarded out Float :=
  if b == 0 then
    return if a == 0 || a.isNaN then Binary64.nan
      else Binary64.infinity (Binary64.isNegative a != Binary64.isNegative b)
  else quotient a b

def combine : Arithmetic → Float → Float → Guarded out Float
  | .quotient, a, b => divide a b
  | op, a, b => return op.combine a b

/-- The check that there are operands is made with their evaluation, and the fold relies on it. -/
def arithmetic (op : Arithmetic) (operands : List Expr) : Guarded out Outcome := do
  let x ← reduce (combine op) (← numericOperands d ev op operands)
  return .value (.number x)

def allSame (values : List Expr) : Guarded out Bool :=
  if values.isEmpty then return true
  else do
    let value ← first values
    ofOption (values.tail.allM (value.sameWithin d))

def comparedOperands (op : Operator) (operands : List Expr) : Guarded out (List Expr) :=
  if operands.isEmpty then fail d (.operandCount op)
  else operands.mapM fun operand => valueOf d ev operand .unitCompared

def comparison (op : Operator) (flip : Bool) (operands : List Expr) : Guarded out Outcome := do
  let same ← allSame d (← comparedOperands d ev op operands)
  return Rule.verdictOf (same != flip)

def conjunction (operands : List Expr) : Guarded out Outcome :=
  if operands.isEmpty then fail d (.operandCount .conjunction)
  else do
    let operand ← first operands
    let same ← ofOption (operands.allM (operand.sameWithin d))
    return Rule.verdictOf same

def disjunction (operands : List Expr) : Guarded out Outcome :=
  if operands.isEmpty then fail d (.operandCount .disjunction)
  else return Rule.verdictOf (operands.any (·.same (.verdict true)))

def negation (operands : List Expr) : Guarded out Outcome :=
  if operands.length ≠ 1 then fail d (.operandCount .negation)
  else do
    let operand ← first operands
    let _ ← ev operand
    if operand.name? = some (Expr.verdictName true) then return Rule.verdictOf false
    else if operand.name? = some (Expr.verdictName false) then return Rule.verdictOf true
    else if operand.isList then return Rule.verdictOf (← allSame d (← itemsOf operand))
    else fail d (.notAVerdict operand)

def defineVariable (operands : List Expr) : Guarded out Outcome :=
  if operands.length ≠ 2 then fail d (.operandCount .defineVariable)
  else do
    let (target, definition) ← two operands
    if target.isSymbol then
      let value ← valueOf d ev definition .unitBound
      bindName (← nameOf target) (.ofValue value)
      return .unit
    else fail d .variableShape

def defineFunction (operands : List Expr) : Guarded out Outcome :=
  if operands.length ≠ 3 then fail d (.operandCount .defineFunction)
  else do
    let (target, params, body) ← three operands
    if target.isSymbol && params.isList then
      let params ← itemsOf params
      if params.all Expr.isSymbol then
        bindName (← nameOf target) ⟨← params.mapM nameOf, body⟩
        return .unit
      else fail d .parameterShape
    else fail d .functionShape

def conditional (operands : List Expr) : Guarded out Outcome :=
  if operands.length ≠ 3 then fail d (.operandCount .conditional)
  else do
    let (condition, first, second) ← three operands
    let value ← valueOf d ev condition .unitCondition
    let _ ← ev (if value.isEmptyList then second else first)
    ev first

def print (operands : List Expr) : Guarded out Outcome := do
  let env ← environment
  let texts ← operands.mapM (render env d)
  printLine (" ".intercalate texts)
  return .unit

def items (es : List Expr) : Guarded out Outcome := do
  let outcomes ← es.mapM ev
  return .value (.list (Rule.values outcomes))

def call (name : String) (b : Binding) (args : List Expr) : Guarded out Outcome :=
  if args.length ≠ b.params.length then fail d (.argumentCount name args.length b.params.length)
  else do
    let values ← args.mapM fun arg => valueOf d ev arg .unitArgument
    noteCall name values.length
    withFrame (b.params.zip values) (ev b.body)

def name (name : String) (args : List Expr) : Guarded out Outcome := do
  match (← environment).lookup name with
  | none => return .value (.symbol name)
  | some b => if b.isFunction then call d ev name b args else ev b.body

def run : Operator → List Expr → Guarded out Outcome
  | .arithmetic op => arithmetic d ev op
  | .equal => comparison d ev .equal false
  | .notEqual => comparison d ev .notEqual true
  | .negation => negation d ev
  | .conjunction => conjunction d
  | .disjunction => disjunction d
  | .defineFunction => defineFunction d
  | .defineVariable => defineVariable d ev
  | .print => print d
  | .conditional => conditional d ev

/-- A list that begins with a symbol. -/
def headed (head : String) (rest : List Expr) : Guarded out Outcome := do
  if (Operator.ofName? head).isSome then run d ev (← reserved head) rest
  else if (← environment).contains head then name d ev head rest
  else items ev (.symbol head :: rest)

end

/-! ### Evaluation -/

def eval : Nat → Expr → Guarded out Outcome
  | 0, _ => exhaust
  | _ + 1, .number x => return .value (.number x)
  | d + 1, .symbol head => name d (eval d) head []
  | _ + 1, .list [] => return .value (.list [])
  | d + 1, .list (.symbol head :: rest) => headed d (eval d) head rest
  | d + 1, .list es => items (eval d) es

/-- The report on an evaluation with this output stream, if it reaches no fault. -/
def evaluate (out : Stream) (allowed : Session.Allowance) (env : Environment) (e : Expr) :
    Except Fault Report :=
  match eval allowed.evaluations e (.start env : MarkedMachine out) with
  | .ok outcome s =>
    .ok ⟨.ofOutcome outcome, s.machine.env, s.printed.toList, s.calls.toList.map .called⟩
  | .error (.failure failure) s =>
    let failed := match failure with
      | .error cause => [.evaluationFailed cause]
      | .exhausted => []
    .ok ⟨.ofFailure failure, s.machine.env, s.printed.toList,
      s.calls.toList.map .called ++ failed⟩
  | .error (.fault f) _ => .error f

end Guarded
end DynLisp
