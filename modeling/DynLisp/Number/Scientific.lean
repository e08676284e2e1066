import DynLisp.Number.Plain

/-! # Scientific notation

A notation that tells numbers from names and integers from fractions at sight: a number always has
a point or a power of ten.  Numbers near one are written positionally, with at least one digit on
either side of the point; all others with one digit before the point and a power of ten. -/

namespace DynLisp

/-- The choices of a scientific notation. -/
structure ScientificStyle where
  /-- The least power of ten of a leading digit that is written positionally. -/
  leastPositional : Int
  /-- The greatest one. -/
  greatestPositional : Int
  /-- The least number of digits of a written power of ten. -/
  exponentDigits : Nat

namespace Decimal

/-- A power of ten: `e+16`, `e-05`. -/
def exponentChars (style : ScientificStyle) (e : Int) : List Char :=
  let digits := Nat.toDigits 10 e.natAbs
  'e' :: (if e < 0 then '-' else '+') ::
    (List.replicate (style.exponentDigits - digits.length) '0' ++ digits)

/-- The characters of the scientific notation. -/
def scientificChars (style : ScientificStyle) (d : Decimal) : List Char :=
  let significant := if d.coefficient = 0 then ['0'] else dropTrailingZeros d.digits
  let leading : Int := if d.coefficient = 0 then 0 else d.digits.length - 1 + d.exponent
  let sign := if d.negative then ['-'] else []
  if style.leastPositional ≤ leading ∧ leading ≤ style.greatestPositional then
    let (whole, fraction) := d.parts
    let fraction := dropTrailingZeros fraction
    sign ++ whole ++ '.' :: (if fraction.isEmpty then ['0'] else fraction)
  else
    let fraction := match significant.tail with
      | [] => []
      | rest => '.' :: rest
    sign ++ significant.take 1 ++ fraction ++ exponentChars style leading

end Decimal

namespace Numeral

/-- The notation of numbers in listings: from `0.0001` up to sixteen whole digits positional, and
powers of ten of at least two digits. -/
def listingStyle : ScientificStyle := ⟨-4, 15, 2⟩

/-- A number as listings show it. -/
def scientific (x : Float) : String :=
  if x.isNaN then "nan"
  else if x.isInf then if Binary64.isNegative x then "-inf" else "inf"
  else .ofList ((Binary64.shortest x).scientificChars listingStyle)

end Numeral
end DynLisp
