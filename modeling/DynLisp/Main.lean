import DynLisp.CommandLine.Run

/-! # The program

Connects a run to the arguments, the variables, the files and the streams of the process. -/

namespace DynLisp.CommandLine

/-- The number of a system error, which may be given with a minus sign. -/
def errorNumber (code : UInt32) : Nat :=
  if code < 0x80000000 then code.toNat else (-code).toNat

/-- The fault behind a failed read. -/
def faultOf : IO.Error → FileFault
  | .noFileOrDirectory .. => .missing
  | .permissionDenied .. => .permissionDenied
  | .inappropriateType _ code _ =>
    if errorNumber code = 20 then .notADirectory else .isADirectory
  | .invalidArgument _ code details =>
    if errorNumber code = 36 then .nameTooLong else .other (errorNumber code) details
  | e => .other 5 (toString e)

/-- The bytes of a file, or why there are none. -/
def readBytes (path : SourcePath) : IO (Except FileFault (List UInt8)) := do
  try
    let bytes ← IO.FS.readBinFile path.text
    return .ok bytes.toList
  catch e => return .error (faultOf e)

/-- A way to read one file, which is read at once if the arguments name it. -/
def readerFor (args : List String) : IO Reader := do
  match Arguments.parse args with
  | .error _ => return fun _ => .error .missing
  | .ok args =>
    let contents ← readBytes (.ofText args.file)
    return fun _ => contents

/-- The variables that settings are taken from. -/
def processVariables : IO Variables := do
  let names := ["MLISP_LOG_LEVEL", "MLISP_RECURSION_LIMIT"]
  let found ← names.mapM fun name => do return (← IO.getEnv name).map (name, ·)
  return found.filterMap id

end DynLisp.CommandLine

open DynLisp.CommandLine in
/-- Runs the program; a fault of the host ends it like an error. -/
def main (args : List String) : IO UInt32 := do
  let answer := run args (← processVariables) (← readerFor args)
  IO.print answer.out
  IO.eprint answer.err
  match answer.ending with
  | .exit code => return .ofNat code
  | .fault _ => return 1
