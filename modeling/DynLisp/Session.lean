import DynLisp.Evaluation
import DynLisp.Expr.Parser
import DynLisp.Token.Lexer

/-! # Running programs

A program is a text with one root expression; what follows the root expression is ignored.  Programs
that run one after the other in a session share an environment.

A run is described by a `Report`: how it ended, the environment it leaves, the lines it printed and
notes on what it did.  Reading and evaluation nest calls, and an `Allowance` says how far each may go. -/

namespace DynLisp

/-- Why a program has no result. -/
inductive ProgramError where
  | lex (e : LexError)
  | parse (e : ParseError)
  | eval (e : EvalError)
  /-- The nested calls were not enough to evaluate the program. -/
  | exhausted

def ProgramError.message : ProgramError → String
  | lex e => "Lex error: " ++ e.message
  | parse e => "Parse error: " ++ e.message
  | eval e => e.message
  | exhausted => "Maximum recursion depth exceeded during evaluation."

/-- How a run ends. -/
inductive Result where
  | value (e : Expr)
  | unit
  | error (cause : ProgramError)

def Result.listing : Result → String
  | value e => "Value(expr=" ++ e.listing ++ ")"
  | unit => "Unit"
  | error cause => "Error(message=" ++ Text.quoted cause.message ++ ")"

def Result.ofOutcome : Outcome → Result
  | .value e => value e
  | .unit => unit

def Result.ofFailure : Failure → Result
  | .error e => error (.eval e)
  | .exhausted => error .exhausted

/-- What a run did. -/
inductive Note where
  | readCharacters (count : Nat) (file : String)
  | readTokens (count : Nat)
  | discardedTokens (count : Nat)
  | called (call : Call)
  | evaluationFailed (cause : EvalError)
  | finished (result : Result)

/-- A note as a line of a log. -/
def Note.line : Note → String
  | readCharacters count file =>
    "DEBUG mlisp: read " ++ toString count ++ " characters from " ++ file
  | readTokens count => "DEBUG mlisp.reader.lexer: lexed " ++ toString count ++ " tokens"
  | discardedTokens count =>
    "DEBUG mlisp.reader.parser: discarding " ++ toString count ++
      " tokens after the root expression"
  | called call =>
    "DEBUG mlisp.evaluation.apply: calling " ++ call.function ++ " with " ++
      toString call.arguments ++ " arguments"
  | evaluationFailed cause =>
    "DEBUG mlisp.evaluation.evaluator: evaluation failed: " ++ cause.message
  | finished result => "DEBUG mlisp.interpreter: program result: " ++ result.listing

structure Report where
  result : Result
  env : Environment
  printed : List String
  notes : List Note

namespace Report

/-- The report on a run that printed and changed nothing. -/
def untouched (env : Environment) (cause : ProgramError) (notes : List Note) : Report :=
  ⟨.error cause, env, [], notes⟩

/-- The printed lines as a text. -/
def output (r : Report) : String :=
  String.join (r.printed.map (· ++ "\n"))

end Report

namespace Session

/-- How far the stages of a run may nest their calls.  What a level of a stage costs is for the host to
say, so that no stage's allowance follows from another's. -/
structure Allowance where
  /-- The lists that may be open inside one another where a program is read. -/
  lists : Nat
  /-- The nested evaluations. -/
  evaluations : Nat

/-- Evaluates an expression. -/
def evaluate (allowed : Allowance) (env : Environment) (e : Expr) : Report :=
  match eval allowed.evaluations e (Machine.start env) with
  | .ok outcome m =>
    ⟨.ofOutcome outcome, m.env, m.printed.toList, m.calls.toList.map .called⟩
  | .error failure m =>
    let failed := match failure with
      | .error cause => [.evaluationFailed cause]
      | .exhausted => []
    ⟨.ofFailure failure, m.env, m.printed.toList, m.calls.toList.map .called ++ failed⟩

/-- Runs a program. -/
def run (allowed : Allowance) (env : Environment) (program : String) : Report :=
  match Token.tokenize program with
  | .error e => .untouched env (.lex e) []
  | .ok tokens =>
    match Expr.parseRoot allowed.lists tokens with
    | .error e => .untouched env (.parse e) [.readTokens tokens.length]
    | .ok (e, discarded) =>
      let r := evaluate allowed env e
      let reading :=
        .readTokens tokens.length :: (if discarded = 0 then [] else [.discardedTokens discarded])
      { r with notes := reading ++ r.notes ++ [.finished r.result] }

/-- A program that can be read is evaluated; the reading only adds to the notes. -/
theorem run_of_parseRoot {allowed : Allowance} (env : Environment) {program : String}
    {tokens : List Token} {e : Expr} {left : Nat} (lexed : Token.tokenize program = .ok tokens)
    (parsed : Expr.parseRoot allowed.lists tokens = .ok (e, left)) :
    ∃ notes, run allowed env program = { evaluate allowed env e with notes := notes } := by
  rw [run, lexed]
  simp only [parsed]
  exact ⟨_, rfl⟩

/-- A run leaves everything untouched, or it evaluates what it has read. -/
theorem run_cases (allowed : Allowance) (env : Environment) (program : String) :
    (∃ cause notes, run allowed env program = .untouched env cause notes) ∨
    ∃ tokens e left, Token.tokenize program = .ok tokens ∧
      Expr.parseRoot allowed.lists tokens = .ok (e, left) ∧
        ∃ notes, run allowed env program = { evaluate allowed env e with notes := notes } := by
  cases lexed : Token.tokenize program with
  | error e =>
    left
    rw [run, lexed]
    exact ⟨_, _, rfl⟩
  | ok tokens =>
    cases parsed : Expr.parseRoot allowed.lists tokens with
    | error e =>
      left
      rw [run, lexed]
      simp only [parsed]
      exact ⟨_, _, rfl⟩
    | ok read => exact .inr ⟨tokens, read.1, read.2, rfl, parsed, run_of_parseRoot env lexed parsed⟩

/-- Runs programs one after the other, whatever becomes of each. -/
def runAll (allowed : Allowance) (env : Environment) : List String → List Report
  | [] => []
  | program :: rest =>
    let r := run allowed env program
    r :: runAll allowed r.env rest

/-! ### Limits

Where this program runs, a limit of nested calls comes to these allowances.  Another host counts in
another way, and nothing is proved about the numbers. -/

/-- The limit of nested calls where nothing else is said. -/
def defaultLimit : Nat := 1000

def evaluationDepth (limit : Nat) : Nat :=
  limit / 2

def Allowance.ofLimit (limit : Nat) : Allowance :=
  ⟨limit, evaluationDepth limit⟩

/-- A limit may be given where allowances are asked for. -/
instance : Coe Nat Allowance := ⟨.ofLimit⟩

end Session
end DynLisp
