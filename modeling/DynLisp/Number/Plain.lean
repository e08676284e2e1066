import DynLisp.Number.Shortest

/-! # Plain notation

A decimal written without a power of ten: the whole part, which begins with a zero only when it is
zero, and after a point the fraction, which does not end in a zero and is left out with its point
when it is empty.  A negative decimal has a minus sign, zero included. -/

namespace DynLisp

namespace Decimal

/-- The digits of the coefficient. -/
def digits (d : Decimal) : List Char :=
  Nat.toDigits 10 d.coefficient

/-- Digits without the zeros at their end. -/
def dropTrailingZeros (cs : List Char) : List Char :=
  (cs.reverse.dropWhile (· == '0')).reverse

/-- The whole part and the fraction, with all zeros that the exponent asks for. -/
def parts (d : Decimal) : List Char × List Char :=
  if 0 ≤ d.exponent then
    (if d.coefficient = 0 then ['0'] else d.digits ++ List.replicate d.exponent.toNat '0', [])
  else
    let places := (-d.exponent).toNat
    let padded := List.replicate (places + 1 - d.digits.length) '0' ++ d.digits
    padded.splitAt (padded.length - places)

/-- The characters of the plain notation. -/
def plainChars (d : Decimal) : List Char :=
  let (whole, fraction) := d.parts
  (if d.negative then ['-'] else []) ++ whole ++
    match dropTrailingZeros fraction with
    | [] => []
    | fraction => '.' :: fraction

end Decimal

namespace Numeral

/-- The plain notation of a number, shortest among those that read back. -/
def plainChars (x : Float) : List Char :=
  if x.isNaN then ['N', 'a', 'N']
  else if x.isInf then (if Binary64.isNegative x then ['-'] else []) ++ ['i', 'n', 'f']
  else (Binary64.shortest x).plainChars

def plain (x : Float) : String :=
  .ofList (plainChars x)

end Numeral
end DynLisp
