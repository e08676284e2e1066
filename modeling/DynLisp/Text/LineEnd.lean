/-! # Line ends

A line of a text file ends with a line feed, a carriage return, or both in this order.  Within the
program every line ends with a line feed. -/

namespace DynLisp.Text

/-- Line feeds in place of all line ends; the characters in `done` have been met, in reverse. -/
def unifyLineEndsFrom (done : List Char) : List Char → List Char
  | [] => done.reverse
  | '\r' :: '\n' :: rest => unifyLineEndsFrom ('\n' :: done) rest
  | '\r' :: rest => unifyLineEndsFrom ('\n' :: done) rest
  | c :: rest => unifyLineEndsFrom (c :: done) rest

def unifyLineEnds (cs : List Char) : List Char :=
  unifyLineEndsFrom [] cs

example : unifyLineEnds ['a', '\r', '\r', '\n', 'b'] = ['a', '\n', '\n', 'b'] := by decide

end DynLisp.Text
