import DynLisp.Text.Digit
import DynLisp.Text.Quoted

/-! # Arguments of the command line

One file and three options, in any order:

* `-h`, `--help` asks for help;
* `--show-result` asks for the result;
* `--log-level LEVEL` or `--log-level=LEVEL` sets the log level.

A long option may be cut short as long as it is the only one that begins so.  After `--` everything
is a file.  An argument with a minus sign is no option if it is a negative number or has a space in
it.  All arguments are sorted into options and files before any of them takes effect. -/

namespace DynLisp.CommandLine

open Text

inductive Flag where
  | help
  | showResult
  | logLevel
deriving DecidableEq, Repr

namespace Flag

/-- The long form of an option. -/
def long : Flag → String
  | help => "--help"
  | showResult => "--show-result"
  | logLevel => "--log-level"

def all : List Flag := [help, showResult, logLevel]

/-- All forms of an option, as messages show them. -/
def forms : Flag → String
  | help => "-h/--help"
  | flag => flag.long

end Flag

/-- Why arguments are refused. -/
inductive UsageError where
  /-- An option cut so short that these could be meant. -/
  | ambiguous (arg : String) (flags : List Flag)
  /-- The option needs an argument and has none. -/
  | missingArgument (flag : Flag)
  /-- The option takes no argument and has one. -/
  | unexpectedArgument (flag : Flag) (arg : String)
  | missingFile
  | unrecognized (args : List String)
deriving DecidableEq, Repr

def UsageError.message : UsageError → String
  | ambiguous arg flags =>
    "ambiguous option: " ++ arg ++ " could match " ++ ", ".intercalate (flags.map (·.long))
  | missingArgument flag => "argument " ++ flag.forms ++ ": expected one argument"
  | unexpectedArgument flag arg =>
    "argument " ++ flag.forms ++ ": ignored explicit argument " ++ quoted arg
  | missingFile => "the following arguments are required: file"
  | unrecognized args => "unrecognized arguments: " ++ " ".intercalate args

/-! ### Sorting arguments -/

/-- What an argument is. -/
inductive Word where
  | plain (text : String)
  | separator
  | flag (flag : Flag) (attached : Option String)
  | unknown (text : String)
deriving DecidableEq, Repr

/-- `-5`, `-.5` or `-1.5`, perhaps with a line feed at the end. -/
def isNegativeNumber : List Char → Bool
  | '-' :: rest =>
    let whole := rest.takeWhile isDigit
    match rest.dropWhile isDigit with
    | [] | ['\n'] => !whole.isEmpty
    | '.' :: rest =>
      let after := rest.dropWhile isDigit
      !(rest.takeWhile isDigit).isEmpty && (after == [] || after == ['\n'])
    | _ => false
  | _ => false

/-- What follows asking for help.  Further `h` ask once more; the first other letter and all after it
are an argument. -/
def afterHelp : List Char → Option String
  | [] => none
  | 'h' :: rest => afterHelp rest
  | cs => some (.ofList cs)

/-- The argument attached to `-h` by the characters after it, where an equals sign right after `-h`
only sets the rest apart. -/
def attachedToHelp : List Char → Option String
  | ['='] => some ""
  | '=' :: rest => afterHelp rest
  | cs => afterHelp cs

/-- An argument before its first equals sign, and after it if there is one. -/
def splitAtEquals (cs : List Char) : List Char × Option String :=
  let name := cs.takeWhile (· != '=')
  match cs.drop name.length with
  | [] => (name, none)
  | _ :: rest => (name, some (.ofList rest))

/-- The options that an argument may stand for, shortened or not. -/
def flagsOf : List Char → List Word
  | '-' :: '-' :: rest =>
    let (name, attached) := splitAtEquals ('-' :: '-' :: rest)
    let exact := Flag.all.filter (·.long.toList == name)
    let flags := if exact.isEmpty then Flag.all.filter (name.isPrefixOf ·.long.toList) else exact
    flags.map (.flag · attached)
  | '-' :: 'h' :: rest => [.flag .help (attachedToHelp rest)]
  | _ => []

/-- What an argument other than `--` is. -/
def sortArgument (arg : String) : Except UsageError Word :=
  match arg.toList with
  | '-' :: c :: rest =>
    let cs := '-' :: c :: rest
    match flagsOf cs with
    | [word] => .ok word
    | [] =>
      if isNegativeNumber cs || cs.contains ' ' then .ok (.plain arg) else .ok (.unknown arg)
    | words =>
      .error (.ambiguous arg (words.filterMap fun
        | .flag flag _ => some flag
        | _ => none))
  | _ => .ok (.plain arg)

/-- What the arguments are. -/
def sortArguments : List String → Except UsageError (List Word)
  | [] => .ok []
  | arg :: rest =>
    if arg = "--" then .ok (.separator :: rest.map .plain)
    else do
      let word ← sortArgument arg
      return word :: (← sortArguments rest)

/-! ### Taking effect -/

/-- What the arguments ask for. -/
structure Arguments where
  file : String
  showResult : Bool
  logLevel : Option String
deriving DecidableEq, Repr

/-- Help is asked for, or the arguments are refused. -/
inductive Detour where
  | help
  | refused (e : UsageError)
deriving DecidableEq, Repr

/-- What has been asked for so far. -/
structure Progress where
  file : Option String
  showResult : Bool
  logLevel : Option String
  /-- Arguments that nothing can be made of, in reverse. -/
  surplus : List String

/-- What has been asked for, if it is enough and not too much. -/
def Progress.finish (p : Progress) : Except Detour Arguments :=
  match p.file, p.surplus with
  | none, _ => .error (.refused .missingFile)
  | some file, [] => .ok ⟨file, p.showResult, p.logLevel⟩
  | some _, surplus => .error (.refused (.unrecognized surplus.reverse))

/-- The level that an argument attached to `--log-level` gives.  Two minus signs stand for no text. -/
def attachedLevel (text : String) : String :=
  if text = "--" then "" else text

/-- A file, and a separator right after it or before it, are taken together. -/
def takeEffect (p : Progress) : List Word → Except Detour Arguments
  | [] => p.finish
  | .separator :: .plain text :: rest =>
    match p.file with
    | none => takeEffect { p with file := some text } rest
    | some _ => takeEffect { p with surplus := text :: "--" :: p.surplus } rest
  | .separator :: rest => takeEffect { p with surplus := "--" :: p.surplus } rest
  | .plain text :: .separator :: rest =>
    match p.file with
    | none => takeEffect { p with file := some text } rest
    | some _ => takeEffect { p with surplus := "--" :: text :: p.surplus } rest
  | .plain text :: rest =>
    match p.file with
    | none => takeEffect { p with file := some text } rest
    | some _ => takeEffect { p with surplus := text :: p.surplus } rest
  | .unknown text :: rest => takeEffect { p with surplus := text :: p.surplus } rest
  | .flag flag (some attached) :: rest =>
    if flag = .logLevel then takeEffect { p with logLevel := some (attachedLevel attached) } rest
    else .error (.refused (.unexpectedArgument flag attached))
  | .flag .help none :: _ => .error .help
  | .flag .showResult none :: rest => takeEffect { p with showResult := true } rest
  | .flag .logLevel none :: .plain text :: rest => takeEffect { p with logLevel := some text } rest
  | .flag .logLevel none :: _ => .error (.refused (.missingArgument .logLevel))

/-- What a command line asks for. -/
def Arguments.parse (args : List String) : Except Detour Arguments :=
  match sortArguments args with
  | .error e => .error (.refused e)
  | .ok words => takeEffect ⟨none, false, none, []⟩ words

/-! ### Texts -/

def usage : String :=
  "usage: mlisp [-h] [--show-result] [--log-level LOG_LEVEL] file\n"

def helpText : String :=
  usage ++ "\n" ++
  "Run an mlisp program. The file must hold a single root expression.\n\n" ++
  "positional arguments:\n" ++
  "  file                  source file to interpret\n\n" ++
  "options:\n" ++
  "  -h, --help            show this help message and exit\n" ++
  "  --show-result         print the value of the root expression after it is\n" ++
  "                        evaluated\n" ++
  "  --log-level LOG_LEVEL\n" ++
  "                        logging level (overrides MLISP_LOG_LEVEL)\n"

/-- What is written when arguments are refused. -/
def UsageError.report (e : UsageError) : String :=
  usage ++ "mlisp: error: " ++ e.message ++ "\n"

end DynLisp.CommandLine
