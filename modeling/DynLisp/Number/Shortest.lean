import DynLisp.Number.Binary64

/-! # The shortest decimal of a number

A finite binary64 number is written by the fewest decimal digits that read back as it, and among
those by the nearest ones.  The multiples of a power of ten form a grid; a number lies between two
neighbours on each grid, and the coarsest grid with a neighbour that reads back has the fewest
digits. -/

namespace DynLisp.Binary64

/-- `c · 10 ^ g` reads back as the pattern `p`. -/
def readsBack (p c : Nat) (g : Int) : Bool :=
  Decimal.pattern ⟨false, c, g⟩ == p

/-- The neighbour of the magnitude of `p` on the grid of `10 ^ g` that reads back: of two the nearer,
and of two at one distance the even one. -/
def neighbour? (p : Nat) (g : Int) : Option Nat :=
  let r := magnitudeOf p * (10 : Rat) ^ (-g)
  let low := r.floor.toNat
  let near := nearestNat r
  let far := if near = low then low + 1 else low
  if readsBack p near g then some near
  else if readsBack p far g then some far
  else none

/-- A power of ten at least as great as the magnitude of `p`, and at most a hundred times greater. -/
def ceilingExponent (p : Nat) : Int :=
  let r := magnitudeOf p
  ((r.num.toNat.log2 : Int) - r.den.log2 + 1) * 30103 / 100000 + 1

/-- Every digit of the number of a pattern: a binary fraction is a decimal fraction. -/
def exactDecimal (negative : Bool) (p : Nat) : Decimal :=
  let r := magnitudeOf p
  ⟨negative, (r * (10 : Rat) ^ r.den.log2).num.toNat, -(r.den.log2 : Int)⟩

/-- The shortest decimal of a finite number. -/
def shortest (x : Float) : Decimal :=
  let p := pattern x
  let top := ceilingExponent p
  let onGrid (k : Nat) : Option Decimal :=
    (neighbour? p (top - k)).map (⟨isNegative x, ·, top - k⟩)
  if p = 0 then ⟨isNegative x, 0, 0⟩
  else ((List.range 20).findSome? onGrid).getD (exactDecimal (isNegative x) p)

end DynLisp.Binary64
