import DynLisp.Number.Decimal

/-! # Rounding to binary64

The bit pattern of a binary64 magnitude, read as a number, grows with the magnitude: patterns below
`2 ^ 52` are the multiples of `2 ^ -1074`, and every further `2 ^ 52` patterns cover one power of
two.  So rounding is choosing a pattern:

* `ofPattern` and `pattern` pass between patterns and numbers;
* `magnitudeOf` is the rational number that a finite pattern stands for;
* `nearestPattern` is the pattern nearest to a rational number, a tie going to the even pattern,
  and the pattern of infinity from the midpoint above the greatest finite number on. -/

namespace DynLisp.Binary64

/-- The sign bit, as a number. -/
def signBit : Nat := 0x8000000000000000

/-- The number of patterns that cover one power of two, `2 ^ 52`. -/
def binade : Nat := 0x10000000000000

/-- The pattern of infinity; finite magnitudes lie below it. -/
def infinityPattern : Nat := 2047 * binade

/-- The pattern of a magnitude. -/
def pattern (x : Float) : Nat :=
  x.toBits.toNat % signBit

/-- The sign bit is set. -/
def isNegative (x : Float) : Bool :=
  signBit ≤ x.toBits.toNat

/-- The number of a sign and a pattern. -/
def ofPattern (negative : Bool) (p : Nat) : Float :=
  .ofBits (.ofNat (p + if negative then signBit else 0))

def infinity (negative : Bool) : Float :=
  ofPattern negative infinityPattern

def nan : Float :=
  ofPattern false (infinityPattern + binade / 2)

/-- `2 ^ e` times a number. -/
def scale (n : Nat) (e : Int) : Rat :=
  n * (2 : Rat) ^ e

/-- The number that a finite pattern stands for. -/
def magnitudeOf (p : Nat) : Rat :=
  if p < binade then scale p (-1074)
  else scale (binade + p % binade) (p / binade - 1075 : Int)

/-! ### Rounding -/

/-- The integer nearest to a nonnegative rational number, a tie going to the even one. -/
def nearestNat (r : Rat) : Nat :=
  let low := r.floor.toNat
  let twice := 2 * r.num.toNat
  let middle := (2 * low + 1) * r.den
  if twice < middle then low
  else if middle < twice then low + 1
  else low + low % 2

/-- The unit in the last place of numbers near `r`, as a power of two: the least exponent from
`-1074` on that leaves at most 53 binary digits before the point. -/
def unitExponent (r : Rat) : Int :=
  let guess := max (-1074) ((r.num.toNat.log2 : Int) - r.den.log2 - 53)
  if r * (2 : Rat) ^ (-guess) < (2 * binade : Nat) then guess else guess + 1

/-- The pattern nearest to a nonnegative rational number. -/
def nearestPattern (r : Rat) : Nat :=
  let e := unitExponent r
  min infinityPattern ((e + 1074).toNat * binade + nearestNat (r * (2 : Rat) ^ (-e)))

end DynLisp.Binary64

namespace DynLisp.Decimal

open Binary64

/-- Everything above this power of ten rounds to infinity, and everything below its inverse to zero. -/
def hugeExponent : Int := 350

/-- The pattern nearest to a decimal magnitude.  Powers of ten beyond every binary64 number are
settled by their size alone; a coefficient `c` lies between `10 ^ (3 l / 10)` and
`10 ^ (l / 3 + 1)` where `l` is its binary logarithm. -/
def pattern (d : Decimal) : Nat :=
  let l := d.coefficient.log2
  if d.coefficient = 0 ∨ (l / 3 + 1 : Nat) + d.exponent < -hugeExponent then 0
  else if hugeExponent < (3 * l / 10 : Nat) + d.exponent then infinityPattern
  else nearestPattern d.magnitude

/-- The binary64 number nearest to a decimal numeral, with its sign. -/
def toFloat (d : Decimal) : Float :=
  ofPattern d.negative d.pattern

end DynLisp.Decimal
