/-! # Reserved operators

A list that begins with one of thirteen names is not an application but follows a rule of its own.
The four arithmetic operators share one rule. -/

namespace DynLisp

/-- The arithmetic operators. -/
inductive Arithmetic where
  | sum
  | difference
  | product
  | quotient
deriving DecidableEq, Repr

/-- The reserved operators. -/
inductive Operator where
  | arithmetic (op : Arithmetic)
  | equal
  | notEqual
  | negation
  | conjunction
  | disjunction
  | defineFunction
  | defineVariable
  | print
  | conditional
deriving DecidableEq, Repr

namespace Arithmetic

/-- The operation, as messages name it. -/
def noun : Arithmetic → String
  | sum => "addition"
  | difference => "subtraction"
  | product => "multiplication"
  | quotient => "division"

/-- What the operation does to numbers, as messages say it. -/
def verb : Arithmetic → String
  | sum => "sum"
  | difference => "subtract"
  | product => "multiply"
  | quotient => "divide"

end Arithmetic

namespace Operator

/-- The reserved name. -/
def name : Operator → String
  | arithmetic .sum => "+"
  | arithmetic .difference => "-"
  | arithmetic .product => "*"
  | arithmetic .quotient => "/"
  | equal => "="
  | notEqual => "!="
  | negation => "not"
  | conjunction => "and"
  | disjunction => "or"
  | defineFunction => "fn"
  | defineVariable => "let"
  | print => "print"
  | conditional => "if"

def all : List Operator :=
  [arithmetic .sum, arithmetic .difference, arithmetic .product, arithmetic .quotient, equal,
    notEqual, negation, conjunction, disjunction, defineFunction, defineVariable, print, conditional]

/-- The operator that a name is reserved for. -/
def ofName? (name : String) : Option Operator :=
  all.find? (·.name == name)

theorem ofName?_eq_some_iff {name : String} {op : Operator} :
    ofName? name = some op ↔ op.name = name := by
  constructor
  · intro h
    simpa using List.find?_some h
  · rintro rfl
    rcases op with op | _ | _ | _ | _ | _ | _ | _ | _ | _
    · cases op <;> decide
    all_goals decide

end Operator
end DynLisp
