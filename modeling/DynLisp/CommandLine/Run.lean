import DynLisp.CommandLine.Arguments
import DynLisp.CommandLine.File
import DynLisp.Session
import DynLisp.Settings
import DynLisp.Text.Stream

/-! # Runs from the command line

A run reads one source file, runs it as the first program of a session and reports errors on the
error stream.  It exits with 0 if the program has a result or help is asked for, with 2 if the
arguments are refused, and with 1 otherwise.

A run depends on its `Host`, which has so many nested calls for each stage and an output stream that
takes some texts only.  In these cases a run ends without an exit code, in a fault of the host:

* the limit of nested calls is greater than the host can count, or not above the calls in use;
* the calls are not enough to read the file;
* there is a NUL in the path;
* the calls are not enough to list the result in the log, or to render it;
* the output stream refuses a text (`Answer.exitCode?`). -/

namespace DynLisp.CommandLine

/-- A fault of the host that nothing in a run handles. -/
inductive HostFault where
  | stackExhausted
  | limitTooGreat
  | nulInPath
deriving DecidableEq, Repr

/-- How a run ends. -/
inductive Ending where
  | exit (code : Nat)
  | fault (cause : HostFault)
deriving DecidableEq, Repr

/-- How a run ends, and what it writes until then. -/
structure Answer where
  ending : Ending
  /-- The texts for the output stream, in the order in which they are written. -/
  writes : List String
  err : String

namespace Answer

def out (a : Answer) : String :=
  String.join a.writes

end Answer

/-- What a run finds on its host.  The allowances are those that are left to the stages of the run. -/
structure Host extends Session.Allowance where
  /-- The nested calls in use where the limit of them is set. -/
  callsInUse : Nat
  /-- There are enough for what takes as many whatever the program is: to read the file, to split it into
  tokens and to write notes. -/
  starts : Bool
  /-- The lists inside one another that can be listed in the log. -/
  listing : Nat
  /-- The nested calls to render the result. -/
  rendering : Nat
  output : Stream

/-- This program as the host, with a limit of nested calls.  The numbers are its own, and no result
depends on them. -/
def Host.ofLimit (limit : Nat) : Host where
  toAllowance := limit
  callsInUse := 20
  starts := true
  listing := limit
  rendering := Session.evaluationDepth limit
  output := .unicode

/-- The greatest limit of nested calls that a host takes. -/
def greatestLimit : Nat := 0x7fffffff

/-- What is wrong with the limit of nested calls, if one is set. -/
def limitFault? (host : Host) : Option Nat → Option HostFault
  | none => none
  | some limit =>
    if greatestLimit < limit then some .limitTooGreat
    else if limit ≤ host.callsInUse then some .stackExhausted
    else none

/-- What is wrong with a path, whether or not there is such a file. -/
def pathFault? (file : String) : Option HostFault :=
  if file.toList.contains '\x00' then some .nulInPath else none

/-- What keeps a run from reading its file, whether or not there is such a file. -/
def fault? (host : Host) (args : Arguments) (vars : Variables) : Option HostFault :=
  limitFault? host vars.recursionLimit <|>
    (if host.starts then none else some .stackExhausted) <|> pathFault? args.file

/-- The lines of a log. -/
def logText (level : LogLevel) (notes : List Note) : String :=
  if level.showsNotes then String.join (notes.map (·.line ++ "\n")) else ""

/-- An error message of the program. -/
def complaint (message : String) : String :=
  "mlisp: " ++ message ++ "\n"

/-- Runs the text of a source file. -/
def runSource (host : Host) (args : Arguments) (level : LogLevel) (source : String) : Answer :=
  let r := Session.run host.toAllowance .default source
  let lines := r.printed.map (· ++ "\n")
  let log (notes : List Note) := logText level (.readCharacters source.length args.file :: notes)
  match r.result with
  | .error cause => ⟨.exit 1, lines, log r.notes ++ complaint cause.message⟩
  | .unit => ⟨.exit 0, lines, log r.notes⟩
  | .value e =>
    -- the last note lists the result
    if level.showsNotes && host.listing < e.nesting then
      ⟨.fault .stackExhausted, lines, log r.notes.dropLast⟩
    else if args.showResult then
      match r.env.render host.rendering e with
      | some text => ⟨.exit 0, lines ++ [text ++ "\n"], log r.notes⟩
      | none => ⟨.fault .stackExhausted, lines, log r.notes⟩
    else ⟨.exit 0, lines, log r.notes⟩

/-- The log level that the arguments ask for, or else the variables. -/
def levelFor (args : Arguments) (vars : Variables) : LogLevel :=
  match args.logLevel with
  | some name => if name.isEmpty then vars.logLevel else .ofName name
  | none => vars.logLevel

/-- Does what the arguments ask for. -/
def runArguments (host : Host) (args : Arguments) (vars : Variables) (read : Reader) : Answer :=
  match fault? host args vars with
  | some cause => ⟨.fault cause, [], ""⟩
  | none =>
    match read.source args.file with
    | .error e =>
      ⟨.exit 1, [], complaint ("cannot read '" ++ args.file ++ "': " ++ e.message)⟩
    | .ok source => runSource host args (levelFor args vars) source

/-- A run with these arguments on a host. -/
def runOn (host : Host) (args : List String) (vars : Variables) (read : Reader) : Answer :=
  match Arguments.parse args with
  | .error .help => ⟨.exit 0, [helpText], ""⟩
  | .error (.refused e) => ⟨.exit 2, [], e.report⟩
  | .ok args => runArguments host args vars read

/-- A run where this program is the host. -/
def run (args : List String) (vars : Variables) (read : Reader) : Answer :=
  runOn (.ofLimit (vars.recursionLimit.getD Session.defaultLimit)) args vars read

end DynLisp.CommandLine
