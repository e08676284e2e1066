import DynLisp.Expr.Basic
import DynLisp.Number.Numeral
import DynLisp.Token.Basic

/-! # Reading expressions from tokens

An expression is a literal, or expressions between an opening and a closing parenthesis.

* `ofLiteral` reads a literal: a number if it is a numeral, otherwise a symbol.
* `readFrom` keeps the items read so far of every list that is still open, the innermost list
  first, and stops where the expression is complete or cannot go on.
* `Cursor` is a place in a token sequence, `Cursor.parse` reads one expression there. -/

namespace DynLisp

/-- Why no expression can be read. -/
inductive ParseError where
  /-- No token is left where an expression should begin. -/
  | endOfInput
  /-- No token is left inside a list. -/
  | unclosed
  /-- A closing parenthesis stands where an expression should begin. -/
  | unexpectedClosing
  | unknownToken (token : Token)
  /-- More lists are open than may be. -/
  | nestedTooDeeply
deriving DecidableEq, Repr

def ParseError.message : ParseError → String
  | endOfInput => "EOF"
  | unclosed => "Unclosed delimiter"
  | unexpectedClosing => "Unexpected ) encountered."
  | unknownToken token => "Unknown token: " ++ token.listing
  | nestedTooDeeply => "expression nested too deeply"

namespace Expr

/-- The number or the symbol that a literal writes. -/
def ofLiteral (text : String) : Expr :=
  match Numeral.read? text with
  | some x => number x
  | none => symbol text

/-- Reads on where the lists in `opened` are open, with their items in reverse; at most `limit`
lists may be.  The second part of the result is where reading stopped: after the expression, or at
the token that does not fit. -/
def readFrom (limit : Nat) : List (List Expr) → List Token → Except ParseError Expr × List Token
  | opened, [] => (.error (if opened.isEmpty then .endOfInput else .unclosed), [])
  | opened, token :: rest =>
    match token.kind, opened with
    | .literal, [] => (.ok (ofLiteral token.text), rest)
    | .literal, items :: outer => readFrom limit ((ofLiteral token.text :: items) :: outer) rest
    | .opening, opened =>
      if opened.length < limit then readFrom limit ([] :: opened) rest
      else (.error .nestedTooDeeply, token :: rest)
    | .closing, [] => (.error .unexpectedClosing, token :: rest)
    | .closing, [items] => (.ok (list items.reverse), rest)
    | .closing, items :: next :: outer =>
      readFrom limit ((list items.reverse :: next) :: outer) rest
    | .foreign _, _ => (.error (.unknownToken token), token :: rest)

end Expr

/-- A place in a token sequence; it may lie beyond the end. -/
structure Cursor where
  tokens : List Token
  position : Nat

namespace Cursor

/-- The token at the cursor. -/
def peek (c : Cursor) : Option Token :=
  c.tokens[c.position]?

/-- Past the token at the cursor, if there is one. -/
def advance (c : Cursor) : Cursor :=
  if c.position < c.tokens.length then { c with position := c.position + 1 } else c

def atEnd (c : Cursor) : Bool :=
  c.tokens.length ≤ c.position

/-- The expression at the cursor, and the cursor where reading stopped. -/
def parse (limit : Nat) (c : Cursor) : Except ParseError Expr × Cursor :=
  let ahead := c.tokens.drop c.position
  let (outcome, rest) := Expr.readFrom limit [] ahead
  (outcome, { c with position := c.position + (ahead.length - rest.length) })

end Cursor

namespace Expr

/-- The expression that begins at an index, and the index after it. -/
def parseAt (limit : Nat) (tokens : List Token) (index : Nat) : Except ParseError (Nat × Expr) :=
  let (outcome, cursor) := Cursor.parse limit ⟨tokens, index⟩
  outcome.map (cursor.position, ·)

/-- The expression that a token sequence begins with, and how many tokens follow it. -/
def parseRoot (limit : Nat) (tokens : List Token) : Except ParseError (Expr × Nat) :=
  (parseAt limit tokens 0).map fun (next, e) => (e, tokens.length - next)

end Expr
end DynLisp
