import DynLisp.Text.Quoted

/-! # Tokens

A token is a parenthesis or a literal, together with its text.  Token sequences may also come from
elsewhere than the lexer, with kinds of their own. -/

namespace DynLisp

inductive TokenKind where
  | opening
  | closing
  | literal
  /-- A kind that no text is split into. -/
  | foreign (name : String)
deriving DecidableEq, Repr

namespace TokenKind

/-- How listings name a kind. -/
def name : TokenKind → String
  | opening => "lparen"
  | closing => "rparen"
  | literal => "literal"
  | foreign name => name

def ofName (name : String) : TokenKind :=
  if name = "lparen" then opening
  else if name = "rparen" then closing
  else if name = "literal" then literal
  else foreign name

end TokenKind

structure Token where
  kind : TokenKind
  text : String
deriving DecidableEq, Repr

namespace Token

def opening : Token := ⟨.opening, "("⟩

def closing : Token := ⟨.closing, ")"⟩

def literal (text : String) : Token := ⟨.literal, text⟩

/-- A token as messages show it. -/
def listing (t : Token) : String :=
  "Token(kind=" ++ Text.quoted t.kind.name ++ ", text=" ++ Text.quoted t.text ++ ")"

end Token
end DynLisp
