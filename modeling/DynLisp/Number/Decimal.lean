import DynLisp.Text.Digit

/-! # Decimal numerals

A decimal numeral is an optional sign, digits with an optional point among or around them, and an
optional power of ten: `-12.5e3`.  The digits may be those of any script; sign, point and the
letter `e` are ASCII. -/

namespace DynLisp

open Text

/-- What a decimal numeral writes: `± coefficient · 10 ^ exponent`.  The sign stands apart, so that
there are two zeros. -/
structure Decimal where
  negative : Bool
  coefficient : Nat
  exponent : Int
deriving DecidableEq, Repr

namespace Decimal

/-- The number without its sign. -/
def magnitude (d : Decimal) : Rat :=
  d.coefficient * (10 : Rat) ^ d.exponent

/-- The number written. -/
def value (d : Decimal) : Rat :=
  if d.negative then -d.magnitude else d.magnitude

/-! ### Reading -/

/-- An optional sign, and whether it is a minus. -/
def takeSign : List Char → Bool × List Char
  | '-' :: rest => (true, rest)
  | '+' :: rest => (false, rest)
  | cs => (false, cs)

/-- Everything after the digits of a numeral: nothing, or a power of ten. -/
def exponentOfChars? : List Char → Option Int
  | [] => some 0
  | c :: rest =>
    if c = 'e' ∨ c = 'E' then
      match takeSign rest with
      | (_, []) => none
      | (negative, digits) =>
        if digits.all isDigit then
          some (if negative then -(valueOfDigits digits : Int) else valueOfDigits digits)
        else none
    else none

/-- The digits after the point, if there is a point, and what follows them. -/
def takeFraction : List Char → List Char × List Char
  | '.' :: rest => (rest.takeWhile isDigit, rest.dropWhile isDigit)
  | cs => ([], cs)

/-- The numeral that a text is. -/
def ofChars? (cs : List Char) : Option Decimal :=
  let (negative, body) := takeSign cs
  let whole := body.takeWhile isDigit
  let (fraction, tail) := takeFraction (body.dropWhile isDigit)
  if whole.isEmpty && fraction.isEmpty then none
  else
    (exponentOfChars? tail).map fun exponent =>
      ⟨negative, valueOfDigits (whole ++ fraction), exponent - fraction.length⟩

example : ofChars? ['-', '1', '2', '.', '5', 'e', '3'] = some ⟨true, 125, 2⟩ := by decide
example : ofChars? ['.'] = none ∧ ofChars? ['1', 'e'] = none ∧ ofChars? ['1', ' '] = none := by decide

end Decimal
end DynLisp
