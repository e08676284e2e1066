import DynLisp.Expr.Basic

/-! # Structural equality

Two expressions are the same when they have the same shape, equal names and equal numbers, where
numbers compare as in IEEE 754: the two zeros are equal, and NaN equals nothing.

* `same` is the verdict, and `allSame` compares several expressions with the first;
* `sameWithin` and `allSameWithin` reach it with a limited depth of nested calls. -/

namespace DynLisp.Expr

mutual

/-- Structural equality. -/
def same : Expr → Expr → Bool
  | number x, number y => x == y
  | symbol s, symbol t => s == t
  | list xs, list ys => sameItems xs ys
  | _, _ => false

/-- Structural equality of the items of two lists, one by one. -/
def sameItems : List Expr → List Expr → Bool
  | [], [] => true
  | x :: xs, y :: ys => same x y && sameItems xs ys
  | _, _ => false

end

/-- All are the same as the first; a single expression is not compared. -/
def allSame : List Expr → Bool
  | [] => true
  | first :: rest => rest.all (same first)

theorem length_eq_of_sameItems {xs ys : List Expr} (h : sameItems xs ys) :
    xs.length = ys.length := by
  induction xs generalizing ys with
  | nil => cases ys <;> simp_all [sameItems]
  | cons x xs ih =>
    cases ys with
    | nil => simp [sameItems] at h
    | cons y ys =>
      simp only [sameItems, Bool.and_eq_true] at h
      simp [ih h.2]

/-! ### With limited depth -/

/-- `same` by at most `d` nested calls. -/
def sameWithin : Nat → Expr → Expr → Option Bool
  | 0, _, _ => none
  | d + 1, list xs, list ys =>
    if xs.length = ys.length then (xs.zip ys).allM fun pair => sameWithin d pair.1 pair.2
    else some false
  | _ + 1, a, b => some (same a b)

theorem sameItems_eq_all_zip (xs ys : List Expr) (h : xs.length = ys.length) :
    sameItems xs ys = (xs.zip ys).all fun pair => same pair.1 pair.2 := by
  induction xs generalizing ys with
  | nil => cases ys <;> simp_all [sameItems]
  | cons x xs ih =>
    cases ys with
    | nil => simp at h
    | cons y ys => simp [sameItems, ih ys (by simpa using h)]

/-- `allSame` by at most `d` nested calls. -/
def allSameWithin (d : Nat) : List Expr → Option Bool
  | [] => some true
  | first :: rest => rest.allM (sameWithin d first)

end DynLisp.Expr
