import DynLisp.Number.Binary64
import DynLisp.Text.Blank

/-! # Numerals

A numeral is a decimal numeral, or in letters of either case the words `nan`, `inf` or `infinity`
with an optional sign.  Blanks around a numeral do not count, but for the information separators,
which are no part of any numeral. -/

namespace DynLisp.Numeral

open Text

/-- The blanks that may stand around a numeral. -/
def isMargin (c : Char) : Bool :=
  isBlank c && !('\x1c' ≤ c && c ≤ '\x1f')

/-- The numbers that are written by a word. -/
def ofWord? (negative : Bool) (word : List Char) : Option Float :=
  if word = ['n', 'a', 'n'] then some Binary64.nan
  else if word = ['i', 'n', 'f'] ∨ word = ['i', 'n', 'f', 'i', 'n', 'i', 't', 'y'] then
    some (Binary64.infinity negative)
  else none

/-- The number of a text without margins. -/
def ofChars? (cs : List Char) : Option Float :=
  let (negative, word) := Decimal.takeSign cs
  match ofWord? negative (word.map Char.toLower) with
  | some x => some x
  | none => (Decimal.ofChars? cs).map Decimal.toFloat

/-- The number that a text writes. -/
def read? (s : String) : Option Float :=
  ofChars? (trimBoth isMargin s.toList)

end DynLisp.Numeral
