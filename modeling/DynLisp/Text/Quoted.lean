import DynLisp.Text.Printable

/-! # Quoted text

A text between quotes, on one line of printable characters:

* the quote is `'`, and `"` for a text that holds `'` but no `"`;
* the quote in use and the backslash are written after a backslash;
* line feed, carriage return and tabulator are written `\n`, `\r` and `\t`;
* every other unprintable character is written by its code, as `\xNN`, `\uNNNN` or
  `\UNNNNNNNN` with the fewest of these digits that hold it. -/

namespace DynLisp.Text

/-- The last `width` hexadecimal digits of a number. -/
def hexDigits : Nat → Nat → List Char
  | 0, _ => []
  | width + 1, n => hexDigits width (n / 16) ++ [Nat.digitChar (n % 16)]

/-- The escape that names a character by its code. -/
def codeEscape (c : Char) : List Char :=
  if c.toNat < 0x100 then '\\' :: 'x' :: hexDigits 2 c.toNat
  else if c.toNat < 0x10000 then '\\' :: 'u' :: hexDigits 4 c.toNat
  else '\\' :: 'U' :: hexDigits 8 c.toNat

/-- One character as it stands between two `mark`s. -/
def quoteChar (mark c : Char) : List Char :=
  if c = mark ∨ c = '\\' then ['\\', c]
  else if c = '\n' then ['\\', 'n']
  else if c = '\r' then ['\\', 'r']
  else if c = '\t' then ['\\', 't']
  else if isPrintable c then [c]
  else codeEscape c

/-- The quote that needs no backslash, where there is one. -/
def quoteMark (cs : List Char) : Char :=
  if '\'' ∈ cs ∧ '"' ∉ cs then '"' else '\''

def quoteChars (cs : List Char) : List Char :=
  quoteMark cs :: cs.flatMap (quoteChar (quoteMark cs)) ++ [quoteMark cs]

/-- The quoted form of a text. -/
def quoted (s : String) : String :=
  .ofList (quoteChars s.toList)

example : quoteChars ['a', '\'', '\n'] = ['"', 'a', '\'', '\\', 'n', '"'] := by decide
example : quoteChars ['\x07'] = ['\'', '\\', 'x', '0', '7', '\''] := by decide

end DynLisp.Text
