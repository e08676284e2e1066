/-! # Expressions

Programs and values are the same thing: a binary64 number, a symbol or a list of expressions.

* `nesting` is the number of lists inside one another;
* `verdict` is the symbol that stands for a truth value. -/

namespace DynLisp

/-- A program or a value. -/
inductive Expr where
  | number (x : Float)
  | symbol (name : String)
  | list (items : List Expr)
deriving Inhabited

namespace Expr

def isNumber : Expr → Bool
  | number _ => true
  | _ => false

def isSymbol : Expr → Bool
  | symbol _ => true
  | _ => false

def isList : Expr → Bool
  | list _ => true
  | _ => false

/-- The name of a symbol. -/
def name? : Expr → Option String
  | symbol name => some name
  | _ => none

/-! ### Nesting -/

mutual

/-- The greatest number of lists around a part, the part itself included. -/
def nesting : Expr → Nat
  | list items => nestingOfItems items + 1
  | _ => 0

/-- The greatest nesting among several expressions. -/
def nestingOfItems : List Expr → Nat
  | [] => 0
  | item :: rest => max item.nesting (nestingOfItems rest)

end

@[simp] theorem nesting_number (x : Float) : (number x).nesting = 0 := by simp [nesting]

@[simp] theorem nesting_symbol (name : String) : (symbol name).nesting = 0 := by simp [nesting]

@[simp] theorem nesting_list (items : List Expr) :
    (list items).nesting = nestingOfItems items + 1 := by simp [nesting]

theorem nesting_le_nestingOfItems {item : Expr} {items : List Expr} (h : item ∈ items) :
    item.nesting ≤ nestingOfItems items := by
  induction items with
  | nil => simp at h
  | cons first rest ih =>
    simp only [nestingOfItems]
    rcases List.mem_cons.1 h with rfl | h
    · exact Nat.le_max_left ..
    · exact Nat.le_trans (ih h) (Nat.le_max_right ..)

theorem nestingOfItems_le_iff {items : List Expr} {n : Nat} :
    nestingOfItems items ≤ n ↔ ∀ item ∈ items, item.nesting ≤ n := by
  induction items with
  | nil => simp [nestingOfItems]
  | cons first rest ih =>
    rw [nestingOfItems, Nat.max_le, ih]
    simp only [List.mem_cons, forall_eq_or_imp]

/-! ### Truth -/

/-- The names of the two verdicts. -/
def verdictName (flag : Bool) : String :=
  if flag then "True" else "False"

/-- The symbol that says whether something holds. -/
def verdict (flag : Bool) : Expr :=
  symbol (verdictName flag)

/-- The empty list, which alone counts as false where a condition is asked. -/
def isEmptyList : Expr → Bool
  | list [] => true
  | _ => false

end Expr
end DynLisp
