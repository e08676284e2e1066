import DynLisp.Text.Blank
import DynLisp.Text.Digit

/-! # Settings

Two environment variables set the log level and the limit of nested calls.  A variable counts only
if it holds something besides blanks, and blanks around it do not count. -/

namespace DynLisp

open Text

/-- How much is logged. -/
inductive LogLevel where
  | notset
  | debug
  | info
  | warning
  | error
  | critical
deriving DecidableEq, Repr

namespace LogLevel

/-- The weight of messages that are still logged. -/
def weight : LogLevel → Nat
  | notset => 0
  | debug => 10
  | info => 20
  | warning => 30
  | error => 40
  | critical => 50

/-- The names of the levels, two of which have a second one. -/
def names : List (String × LogLevel) :=
  [("CRITICAL", critical), ("FATAL", critical), ("ERROR", error), ("WARNING", warning),
    ("WARN", warning), ("INFO", info), ("DEBUG", debug), ("NOTSET", notset)]

/-- The capital of an ASCII letter; the dotless i and the long s have the ASCII capitals too. -/
def capital (c : Char) : Char :=
  if c = 'ı' then 'I' else if c = 'ſ' then 'S' else c.toUpper

/-- The level of a name in letters of either case; unknown names mean warnings. -/
def ofName (name : String) : LogLevel :=
  (names.lookup (name.map capital)).getD warning

/-- Notes on what a run does are logged. -/
def showsNotes (level : LogLevel) : Bool :=
  level.weight ≤ debug.weight

end LogLevel

/-- The variables of a process. -/
abbrev Variables := List (String × String)

namespace Variables

/-- The value of a variable without the blanks around it, or another if it holds nothing. -/
def value (vars : Variables) (name : String) (otherwise : Option String) : Option String :=
  match vars.lookup name with
  | none => otherwise
  | some raw =>
    let text := trimBlanks raw
    if text.isEmpty then otherwise else some text

def logLevel (vars : Variables) : LogLevel :=
  .ofName ((vars.value "MLISP_LOG_LEVEL" none).getD "WARNING")

end Variables

/-! ### Integers -/

/-- The greatest number of digits that an integer is read from. -/
def maxDigits : Nat := 4300

/-- Digits with single underscores between them, without the underscores. -/
def joinDigitGroups? : List Char → Option (List Char)
  | [] => none
  | [c] => if isDigit c then some [c] else none
  | c :: '_' :: rest => if isDigit c then (joinDigitGroups? rest).map (c :: ·) else none
  | c :: rest => if isDigit c then (joinDigitGroups? rest).map (c :: ·) else none

/-- The positive integer that a text writes, with an optional plus sign. -/
def positive? (s : String) : Option Nat :=
  let cs := match s.toList with
    | '+' :: rest => rest
    | cs => cs
  match joinDigitGroups? cs with
  | none => none
  | some digits =>
    let n := valueOfDigits digits
    if digits.length ≤ maxDigits ∧ 0 < n then some n else none

/-- The limit of nested calls that the variables ask for, if they do. -/
def Variables.recursionLimit (vars : Variables) : Option Nat :=
  (vars.value "MLISP_RECURSION_LIMIT" none).bind positive?

end DynLisp
