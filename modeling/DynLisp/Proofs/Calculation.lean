import DynLisp.Proofs.Conditions
import DynLisp.Proofs.Number.Division

/-! # Calculations

Expressions that are built from numbers by the arithmetic operators alone mean numbers, whatever the
environment: each operation folds the values of its parts from the left, by the operations of IEEE 754.

* `Calculation.value` is this meaning, and `Calculation.expr` the expression that is written.
* `Calculation.eval_expr`: evaluation gives the meaning and does nothing else; if the nested evaluations
  are too few, it is exhausted and has done nothing. -/

namespace DynLisp

/-- The operation of IEEE 754 on two binary64 numbers. -/
def Arithmetic.ieee : Arithmetic → Float → Float → Float
  | sum, a, b => a + b
  | difference, a, b => a - b
  | product, a, b => a * b
  | quotient, a, b => a / b

theorem Arithmetic.combine_eq_ieee (op : Arithmetic) : op.combine = op.ieee := by
  funext a b
  cases op with
  | quotient => exact divide_eq_div a b
  | sum | difference | product => rfl

/-- Numbers that are written, and operations on one or more parts. -/
inductive Calculation where
  | literal (x : Float)
  | apply (op : Arithmetic) (first : Calculation) (rest : List Calculation)

namespace Calculation

mutual

/-- The number that a calculation means. -/
def value : Calculation → Float
  | literal x => x
  | apply op first rest => (valuesOf rest).foldl op.ieee first.value

def valuesOf : List Calculation → List Float
  | [] => []
  | c :: rest => c.value :: valuesOf rest

end

mutual

/-- The expression that writes a calculation. -/
def expr : Calculation → Expr
  | literal x => .number x
  | apply op first rest => .operation (.arithmetic op) (first.expr :: exprsOf rest)

def exprsOf : List Calculation → List Expr
  | [] => []
  | c :: rest => c.expr :: exprsOf rest

end

theorem valuesOf_eq_map : ∀ cs : List Calculation, valuesOf cs = cs.map value
  | [] => by simp [valuesOf]
  | c :: cs => by rw [valuesOf, valuesOf_eq_map cs, List.map_cons]

theorem exprsOf_eq_map : ∀ cs : List Calculation, exprsOf cs = cs.map expr
  | [] => by simp [exprsOf]
  | c :: cs => by rw [exprsOf, exprsOf_eq_map cs, List.map_cons]

end Calculation

/-! ### Computations that do nothing but need room -/

namespace Eval

variable {α β : Type} {room : Prop} [Decidable room]

/-- Gives a result if there is room, and is exhausted otherwise. -/
def settle (room : Prop) [Decidable room] (a : α) : Eval α :=
  if room then pure a else exhaust

theorem settle_bind (a : α) (f : α → Eval β) : (settle room a >>= f) = if room then f a else exhaust := by
  unfold settle
  split <;> rfl

theorem mapM_settle {f : α → Eval β} {g : α → β} {p : α → Prop} [DecidablePred p] :
    ∀ {as : List α}, (∀ a ∈ as, f a = settle (p a) (g a)) →
      as.mapM f = settle (∀ a ∈ as, p a) (as.map g)
  | [], _ => by simp [settle]
  | a :: as, h => by
      rw [List.forall_mem_cons] at h
      rw [List.mapM_cons, h.1, mapM_settle h.2, settle_bind, settle_bind]
      simp only [settle, List.forall_mem_cons, ite_and]
      rfl

end Eval

theorem Expr.nestingOfItems_lt_iff {items : List Expr} (ne : items ≠ []) {n : Nat} :
    nestingOfItems items < n ↔ ∀ item ∈ items, item.nesting < n := by
  cases n with
  | zero => simpa using List.exists_mem_of_ne_nil items ne
  | succ n => simp only [Nat.lt_succ_iff, nestingOfItems_le_iff]

open Eval in
theorem Rule.operandNumber_settle {room : Prop} [Decidable room] {d : Nat} {ev : Evaluator} {e : Expr}
    {x : Float} (h : ev e = settle room (.value (.number x))) (op : Arithmetic) :
    operandNumber d ev op e = settle room x := by
  rw [operandNumber, Evaluator.valueOf, h, settle_bind]
  unfold settle
  split <;> rfl

namespace Calculation

open Eval

/-- The parts are evaluated one after the other and then folded. -/
theorem arithmetic_settle {d : Nat} {ev : Evaluator} {p : Calculation → Prop} [DecidablePred p]
    {first : Calculation} {rest : List Calculation}
    (parts : ∀ c ∈ first :: rest, ev c.expr = settle (p c) (.value (.number c.value)))
    (op : Arithmetic) : Rule.arithmetic d ev op ((first :: rest).map expr) =
      settle (∀ c ∈ first :: rest, p c)
        (.value (.number ((rest.map value).foldl op.ieee first.value))) := by
  rw [List.forall_mem_cons] at parts
  have others : (rest.map expr).mapM (Rule.operandNumber d ev op) =
      settle (∀ c ∈ rest, p c) (rest.map value) := by
    rw [List.mapM_map]
    exact mapM_settle fun c hc => Rule.operandNumber_settle (parts.2 c hc) op
  rw [List.map_cons, Rule.arithmetic, Rule.operandNumber_settle parts.1, others, settle_bind,
    settle_bind, op.combine_eq_ieee]
  simp only [settle, List.forall_mem_cons, ite_and]

theorem nesting_expr_apply_lt_iff (op : Arithmetic) (first : Calculation) (rest : List Calculation)
    {d : Nat} : (apply op first rest).expr.nesting < d + 1 ↔
      ∀ c ∈ first :: rest, c.expr.nesting < d := by
  have items : (apply op first rest).expr.nesting =
      Expr.nestingOfItems ((first :: rest).map expr) + 1 := by
    rw [expr, exprsOf_eq_map, Expr.operation, Expr.nesting_list, Expr.nestingOfItems,
      Expr.nesting_symbol, Nat.zero_max, List.map_cons]
  rw [items, Nat.add_lt_add_iff_right, Expr.nestingOfItems_lt_iff (by simp), List.forall_mem_map]

mutual

/-- Evaluation gives what the calculation means, and does nothing else. -/
theorem eval_expr : ∀ (c : Calculation) (d : Nat),
    eval d c.expr = settle (c.expr.nesting < d) (.value (.number c.value))
  | c, 0 => by simp [eval, settle]
  | literal x, d + 1 => by
      simp only [settle, expr, value, Expr.nesting_number, Nat.zero_lt_succ, if_true]
      rfl
  | apply op first rest, d + 1 => by
      have parts : ∀ c ∈ first :: rest,
          eval d c.expr = settle (c.expr.nesting < d) (.value (.number c.value)) :=
        List.forall_mem_cons.2 ⟨eval_expr first d, fun c hc => eval_exprs rest c hc d⟩
      have evaluated : eval (d + 1) (apply op first rest).expr =
          Rule.arithmetic d (eval d) op ((first :: rest).map expr) := by
        funext m
        rw [expr, eval_operation, exprsOf_eq_map]
        rfl
      rw [evaluated, arithmetic_settle parts, value, valuesOf_eq_map]
      simp only [settle, nesting_expr_apply_lt_iff]

theorem eval_exprs : ∀ (cs : List Calculation), ∀ c ∈ cs, ∀ d : Nat,
    eval d c.expr = settle (c.expr.nesting < d) (.value (.number c.value))
  | [] => by simp
  | c :: cs => List.forall_mem_cons.2 ⟨eval_expr c, eval_exprs cs⟩

end

end Calculation

/-- **Calculations mean their folds.**  In every environment, the value of an expression that is built
from numbers by the arithmetic operators is the number that it means: at each operation, the values of
the parts folded from the left by the operation of IEEE 754.  Nothing is printed, called or bound, and it
cannot fail but for want of nested evaluations, of which one more than the operations inside one another
is enough.  Dividing by a zero gives NaN for a zero or NaN, and otherwise an infinity with the product of
the signs. -/
theorem calculation_means_folds (c : Calculation) :
    (∀ (d : Nat) (m : Machine), eval d c.expr m =
      if c.expr.nesting < d then .ok (.value (.number c.value)) m else .error .exhausted m) ∧
    (∀ (allowed : Session.Allowance) (env : Environment), c.expr.nesting < allowed.evaluations →
      Session.evaluate allowed env c.expr = ⟨.value (.number c.value), env, [], []⟩) ∧
    (∀ a b : Float, (b == 0) = true → Arithmetic.quotient.ieee a b =
      if a == 0 || a.isNaN then Binary64.nan
      else Binary64.infinity (Binary64.isNegative a != Binary64.isNegative b)) := by
  have ends : ∀ (d : Nat) (m : Machine), eval d c.expr m =
      if c.expr.nesting < d then .ok (.value (.number c.value)) m else .error .exhausted m := by
    intro d m
    rw [c.eval_expr, Eval.settle]
    split <;> rfl
  refine ⟨ends, fun allowed env room => ?_, fun a b zero => Binary64.div_of_zero zero⟩
  rw [Session.evaluate, ends, if_pos room]
  rfl

/-- `(/ (- 1 3) (* -0 2))` where all four operators are bound: `-2` divided by the negative zero. -/
theorem calculation_with_bound_operators :
    let c : Calculation := .apply .quotient (.apply .difference (.literal 1) [.literal 3])
      [.apply .product (.literal (-0)) [.literal 2]]
    let env : Environment := .ofValues
      [("+", .list []), ("-", .list []), ("*", .symbol "*"), ("/", .symbol "x")]
    let allowed : Session.Allowance := ⟨2, 3⟩
    c.expr.nesting < allowed.evaluations ∧
    Session.evaluate allowed env c.expr =
      ⟨.value (.number (Binary64.infinity false)), env, [], []⟩ := by
  intro c env allowed
  have room : c.expr.nesting < allowed.evaluations := by decide +kernel
  have value : c.value = Binary64.infinity false := by decide +kernel
  have evaluated := (calculation_means_folds c).2.1 allowed env room
  rw [value] at evaluated
  exact ⟨room, evaluated⟩

end DynLisp
