import DynLisp.Token.Basic
import DynLisp.Text.Blank

/-! # Splitting a text into tokens

* Blanks separate tokens and are no part of any.
* Each parenthesis is a token.
* A longest run of other characters is a literal; all of them must be printable.

`lex` gives the tokens up to the first character that can stand nowhere, and that character if
there is one; a literal that it would be part of is not given. -/

namespace DynLisp

/-- A character that is neither blank nor printable, and its place in the text. -/
structure LexError where
  char : Char
  offset : Nat
deriving DecidableEq, Repr

def LexError.message (e : LexError) : String :=
  "Unexpected character " ++ Text.quoted (.singleton e.char) ++ " at offset " ++ toString e.offset

namespace Token

open Text

/-- A character that may be part of a literal. -/
def isLiteralChar (c : Char) : Bool :=
  isPrintable c && !isBlank c && c != '(' && c != ')'

/-- The literal whose characters have been met, last one first, before the given tokens; without
characters there is none. -/
def flush (run : List Char) (tokens : List Token) : List Token :=
  if run.isEmpty then tokens else literal (.ofList run.reverse) :: tokens

/-- Splits the text from `offset` on, where the characters in `run` and the tokens in `tokens` have
been met, in reverse. -/
def lexFrom (offset : Nat) (run : List Char) (tokens : List Token) :
    List Char → List Token × Option LexError
  | [] => ((flush run tokens).reverse, none)
  | c :: rest =>
    if isBlank c then lexFrom (offset + 1) [] (flush run tokens) rest
    else if c = '(' then lexFrom (offset + 1) [] (opening :: flush run tokens) rest
    else if c = ')' then lexFrom (offset + 1) [] (closing :: flush run tokens) rest
    else if isPrintable c then lexFrom (offset + 1) (c :: run) tokens rest
    else (tokens.reverse, some ⟨c, offset⟩)

/-- The tokens of a text before its first unexpected character. -/
def lex (s : String) : List Token × Option LexError :=
  lexFrom 0 [] [] s.toList

/-- The tokens of a text. -/
def tokenize (s : String) : Except LexError (List Token) :=
  match lex s with
  | (tokens, none) => .ok tokens
  | (_, some e) => .error e

end Token
end DynLisp
