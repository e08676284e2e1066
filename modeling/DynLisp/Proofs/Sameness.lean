import DynLisp.Proofs.Conditions
import DynLisp.Proofs.Parameters

/-! # Being the same

Structural equality is not reflexive, because NaN equals nothing, and it is no identity, because the
two zeros are equal.  But for that it is what it should be.

* `Expr.same_iff`: two expressions are the same exactly if no NaN is in them and they are identical once
  every negative zero is replaced by zero.  So being the same is symmetric and transitive.
* `Expr.allSame_iff_pairwise`: though the others are compared with the first one only, all are the same
  exactly if each is the same as all that follow it.  `Expr.eachSame`, which compares the first one with
  itself too, holds exactly if each is the same as every one.  So the order does not matter to either.
* `eval_conjunction` and `eval_comparison`: these are the verdicts of the operators that compare, given
  the nested calls to reach them. -/

namespace DynLisp

/-! ### Numbers -/

namespace Binary64

/-- The number, but zero in place of the negative zero. -/
def unsignZero (x : Float) : Float :=
  if x = -0 then 0 else x

/-- Numbers are equal exactly if neither is NaN and they are identical but for the sign of a zero. -/
theorem beq_iff_unsignZero {x y : Float} : (x == y) = true ↔
    x.isNaN = false ∧ y.isNaN = false ∧ unsignZero x = unsignZero y := by
  have zeros : (0 : Float) ≠ -0 := by decide
  rw [Float.beq_iff_ne_nan_and_eq, Float.isNaN_eq_decide_eq_nan, Float.isNaN_eq_decide_eq_nan,
    decide_eq_false_iff_not, decide_eq_false_iff_not]
  refine and_congr_right' (and_congr_right' ?_)
  unfold unsignZero
  by_cases hx : x = -0
  · by_cases hy : y = -0
    · simp [hx, hy]
    · simp [hx, hy, zeros, eq_comm]
  · by_cases hy : y = -0
    · simp [hx, hy]
    · simp [hx, hy]

end Binary64

namespace Expr

mutual

/-- The numbers in an expression, from left to right. -/
def numbers : Expr → List Float
  | number x => [x]
  | symbol _ => []
  | list items => numbersOfItems items

def numbersOfItems : List Expr → List Float
  | [] => []
  | item :: rest => item.numbers ++ numbersOfItems rest

end

/-- No number in the expression is NaN. -/
def WithoutNaN (e : Expr) : Prop := ∀ x ∈ e.numbers, x.isNaN = false

instance (e : Expr) : Decidable e.WithoutNaN :=
  inferInstanceAs (Decidable (∀ x ∈ e.numbers, x.isNaN = false))

@[simp] theorem withoutNaN_number {x : Float} : (number x).WithoutNaN ↔ x.isNaN = false := by
  simp [WithoutNaN, numbers]

@[simp] theorem withoutNaN_symbol (name : String) : (symbol name).WithoutNaN := by
  simp [WithoutNaN, numbers]

@[simp] theorem withoutNaN_nil : (list []).WithoutNaN := by
  simp [WithoutNaN, numbers, numbersOfItems]

@[simp] theorem withoutNaN_cons {item : Expr} {rest : List Expr} :
    (list (item :: rest)).WithoutNaN ↔ item.WithoutNaN ∧ (list rest).WithoutNaN := by
  simp only [WithoutNaN, numbers, numbersOfItems, List.forall_mem_append]

mutual

/-- The expression with zero in place of every negative zero. -/
def unsignZeros : Expr → Expr
  | number x => number (Binary64.unsignZero x)
  | symbol name => symbol name
  | list items => list (unsignZerosOfItems items)

def unsignZerosOfItems : List Expr → List Expr
  | [] => []
  | item :: rest => item.unsignZeros :: unsignZerosOfItems rest

end

/-! ### Two expressions -/

mutual

/-- Expressions are the same exactly if no NaN is in them and they are identical but for signs of
zeros. -/
theorem same_iff : ∀ {a b : Expr},
    same a b = true ↔ a.WithoutNaN ∧ b.WithoutNaN ∧ a.unsignZeros = b.unsignZeros
  | number x, number y => by
      simp only [same, unsignZeros, withoutNaN_number, number.injEq]
      exact Binary64.beq_iff_unsignZero
  | symbol s, symbol t => by simp [same, unsignZeros]
  | list xs, list ys => by
      simp only [same, unsignZeros, list.injEq]
      exact sameItems_iff
  | number _, symbol _ | number _, list _ | symbol _, number _ | symbol _, list _ | list _, number _
  | list _, symbol _ => by simp [same, unsignZeros]

theorem sameItems_iff : ∀ {xs ys : List Expr}, sameItems xs ys = true ↔
    (list xs).WithoutNaN ∧ (list ys).WithoutNaN ∧ unsignZerosOfItems xs = unsignZerosOfItems ys
  | [], [] => by simp [sameItems]
  | [], _ :: _ | _ :: _, [] => by simp [sameItems, unsignZerosOfItems]
  | x :: xs, y :: ys => by
      simp only [sameItems, unsignZerosOfItems, withoutNaN_cons, List.cons.injEq, Bool.and_eq_true,
        @same_iff x y, @sameItems_iff xs ys]
      tauto

end

variable {a b c : Expr} {es es' : List Expr}

theorem same_symm (h : same a b = true) : same b a = true := by
  rw [same_iff] at h ⊢
  exact ⟨h.2.1, h.1, h.2.2.symm⟩

theorem same_trans (hab : same a b = true) (hbc : same b c = true) : same a c = true := by
  rw [same_iff] at hab hbc ⊢
  exact ⟨hab.1, hbc.2.1, hab.2.2.trans hbc.2.2⟩

/-- An expression is the same as itself exactly if no NaN is in it. -/
theorem same_self_iff : same a a = true ↔ a.WithoutNaN := by
  simp [same_iff]

/-! ### Several expressions -/

/-- All are the same exactly if each is the same as all that follow it. -/
theorem allSame_iff_pairwise : allSame es = true ↔ es.Pairwise fun a b => same a b = true := by
  cases es with
  | nil => simp [allSame]
  | cons first rest =>
      rw [allSame, List.all_eq_true, List.pairwise_cons]
      refine ⟨fun like => ⟨like, ?_⟩, And.left⟩
      exact List.pairwise_of_forall_mem_list fun a ha b hb => same_trans (same_symm (like a ha)) (like b hb)

theorem allSame_of_perm (h : es.Perm es') : allSame es = allSame es' := by
  rw [Bool.eq_iff_iff, allSame_iff_pairwise, allSame_iff_pairwise]
  exact h.pairwise_iff same_symm

/-- Each is the same as the first one, this one included. -/
def eachSame : List Expr → Bool
  | [] => true
  | first :: rest => (first :: rest).all (same first)

/-- Each is the same as the first one, itself included, exactly if each is the same as every one. -/
theorem eachSame_iff : eachSame es = true ↔ ∀ a ∈ es, ∀ b ∈ es, same a b = true := by
  cases es with
  | nil => simp [eachSame]
  | cons first rest =>
      rw [eachSame, List.all_eq_true]
      constructor
      · exact fun like a ha b hb => same_trans (same_symm (like a ha)) (like b hb)
      · exact fun all => all first List.mem_cons_self

theorem eachSame_of_perm (h : es.Perm es') : eachSame es = eachSame es' := by
  rw [Bool.eq_iff_iff, eachSame_iff, eachSame_iff]
  simp only [h.mem_iff]

/-- To compare the first one with itself adds that no NaN is in it. -/
theorem eachSame_cons_iff {first : Expr} {rest : List Expr} : eachSame (first :: rest) = true ↔
    first.WithoutNaN ∧ allSame (first :: rest) = true := by
  rw [eachSame, List.all_cons, Bool.and_eq_true, same_self_iff, allSame]

/-- Among two or more this is settled by the others. -/
theorem eachSame_eq_allSame (two : 2 ≤ es.length) : eachSame es = allSame es := by
  match es, two with
  | first :: second :: rest, _ =>
      rw [Bool.eq_iff_iff, eachSame_cons_iff, and_iff_right_of_imp]
      intro all
      rw [allSame, List.all_cons, Bool.and_eq_true, same_iff] at all
      exact all.1.1

/-! ### With limited depth -/

theorem allM_of_forall_some {α : Type} {p : α → Option Bool} {q : α → Bool} :
    ∀ {as : List α}, (∀ a ∈ as, p a = some (q a)) → as.allM p = some (as.all q)
  | [], _ => rfl
  | a :: as, h => by
      rw [List.forall_mem_cons] at h
      rw [List.allM, h.1, allM_of_forall_some h.2, List.all_cons]
      cases q a <;> rfl

/-- A depth greater than the nesting of one of them is enough to compare two expressions. -/
theorem sameWithin_of_nesting {d : Nat} (room : a.nesting < d) :
    sameWithin d a b = some (same a b) := by
  induction d generalizing a b with
  | zero => cases room
  | succ d ih =>
      cases a with
      | list xs =>
          cases b with
          | list ys =>
              rw [sameWithin, same]
              split
              · rename_i lengths
                rw [sameItems_eq_all_zip xs ys lengths]
                refine allM_of_forall_some fun pair hp => ih ?_
                have nested := nesting_le_nestingOfItems (List.of_mem_zip hp).1
                rw [nesting_list] at room
                omega
              · rename_i lengths
                rw [Bool.eq_false_iff.2 fun same => lengths (length_eq_of_sameItems same)]
          | number _ | symbol _ => rw [sameWithin]; simp
      | number _ | symbol _ => rw [sameWithin]; simp

theorem allSameWithin_of_nesting {d : Nat} (room : ∀ e ∈ es, e.nesting < d) :
    allSameWithin d es = some (allSame es) := by
  cases es with
  | nil => rfl
  | cons first rest =>
      exact allM_of_forall_some fun e _ => sameWithin_of_nesting (room first List.mem_cons_self)

end Expr

/-! ### Verdicts -/

section

variable {d : Nat} {es es' operands operands' vs vs' : List Expr} {m m' : Machine}

/-- The operands of `and` are compared as they are written. -/
theorem Rule.conjunction_of_nesting (ne : es ≠ []) (room : ∀ e ∈ es, e.nesting < d) :
    conjunction d es m = .ok (verdictOf (Expr.eachSame es)) m := by
  cases es with
  | nil => contradiction
  | cons first rest =>
      have compared : (first :: rest).allM (first.sameWithin d) = some (Expr.eachSame (first :: rest)) :=
        Expr.allM_of_forall_some fun e _ => Expr.sameWithin_of_nesting (room first List.mem_cons_self)
      rw [conjunction, compared]
      rfl

theorem eval_conjunction (ne : es ≠ []) (room : ∀ e ∈ es, e.nesting < d) :
    eval (d + 1) (.operation .conjunction es) m = .ok (Rule.verdictOf (Expr.eachSame es)) m := by
  rw [eval_operation]
  exact Rule.conjunction_of_nesting ne room

theorem Rule.comparison_of_values {ev : Evaluator} (ne : operands ≠ [])
    (given : operands.mapM (fun e => ev.valueOf d e .unitCompared) m = .ok vs m')
    (room : ∀ v ∈ vs, v.nesting < d) (op : Operator) (flip : Bool) :
    comparison d ev op flip operands m = .ok (verdictOf (Expr.allSame vs != flip)) m' := by
  cases operands with
  | nil => contradiction
  | cons first rest =>
      rw [comparison, Eval.bind_of_ok given, Expr.allSameWithin_of_nesting room]
      · rfl
      · simp

/-- Values are compared by `=` and `!=`, for which one nested evaluation more than for the operands is
enough. -/
theorem eval_comparison (ne : operands ≠ [])
    (given : operands.mapM (eval d) m = .ok (vs.map .value) m') :
    eval (d + 2) (.operation .equal operands) m = .ok (Rule.verdictOf (Expr.allSame vs)) m' ∧
    eval (d + 2) (.operation .notEqual operands) m = .ok (Rule.verdictOf (!Expr.allSame vs)) m' := by
  have values : operands.mapM (fun e => Evaluator.valueOf (eval (d + 1)) (d + 1) e .unitCompared) m =
      .ok vs m' :=
    Eval.mapM_of_ok (fun h => Evaluator.valueOf_of_value (eval_of_ok (Nat.le_succ d) h) _ _) given
  have room : ∀ v ∈ vs, v.nesting < d + 1 :=
    fun v hv => Nat.lt_succ_of_le (nesting_le_of_mapM_eval given v hv)
  rw [eval_operation, eval_operation]
  constructor
  · have compared := Rule.comparison_of_values ne values room .equal false
    rwa [Bool.bne_false] at compared
  · have compared := Rule.comparison_of_values ne values room .notEqual true
    rwa [Bool.bne_true] at compared

end

/-- **Sameness.**  Being the same is symmetric and transitive; an expression is the same as itself
exactly if no NaN is in it; and two are the same exactly if no NaN is in either and they are identical
but for the signs of zeros.  So comparing several expressions with the first one gives the same verdict
in any order, and of two or more it holds exactly if each of them is the same as every one.  The
verdicts of `and`, `=` and `!=` do not depend on the order of what they compare either. -/
theorem sameness :
    (∀ a b : Expr, a.same b = true → b.same a = true) ∧
    (∀ a b c : Expr, a.same b = true → b.same c = true → a.same c = true) ∧
    (∀ a : Expr, a.same a = true ↔ a.WithoutNaN) ∧
    (∀ a b : Expr, a.same b = true ↔
      a.WithoutNaN ∧ b.WithoutNaN ∧ a.unsignZeros = b.unsignZeros) ∧
    (∀ es es' : List Expr, es.Perm es' →
      Expr.allSame es = Expr.allSame es' ∧ Expr.eachSame es = Expr.eachSame es') ∧
    (∀ es : List Expr, 2 ≤ es.length →
      (Expr.allSame es = true ↔ ∀ a ∈ es, ∀ b ∈ es, a.same b = true)) ∧
    (∀ (d : Nat) (es es' : List Expr) (m : Machine), es.Perm es' → (∀ e ∈ es, e.nesting < d) →
      eval (d + 1) (.operation .conjunction es) m = eval (d + 1) (.operation .conjunction es') m) ∧
    (∀ (d d' : Nat) (operands operands' vs vs' : List Expr) (m₁ m₂ m₁' m₂' : Machine), vs ≠ [] →
      operands.mapM (eval d) m₁ = .ok (vs.map .value) m₂ →
      operands'.mapM (eval d') m₁' = .ok (vs'.map .value) m₂' → vs.Perm vs' → ∃ flag,
        eval (d + 2) (.operation .equal operands) m₁ = .ok (Rule.verdictOf flag) m₂ ∧
        eval (d' + 2) (.operation .equal operands') m₁' = .ok (Rule.verdictOf flag) m₂' ∧
        eval (d + 2) (.operation .notEqual operands) m₁ = .ok (Rule.verdictOf (!flag)) m₂ ∧
        eval (d' + 2) (.operation .notEqual operands') m₁' = .ok (Rule.verdictOf (!flag)) m₂') := by
  refine ⟨fun _ _ => Expr.same_symm, fun _ _ _ => Expr.same_trans, fun _ => Expr.same_self_iff,
    fun _ _ => Expr.same_iff, fun _ _ perm => ⟨Expr.allSame_of_perm perm, Expr.eachSame_of_perm perm⟩,
    fun es two => ?_, fun d es es' m perm room => ?_,
    fun d d' operands operands' vs vs' m₁ m₂ m₁' m₂' ne given given' perm => ?_⟩
  · rw [← Expr.eachSame_eq_allSame two, Expr.eachSame_iff]
  · by_cases ne : es = []
    · subst ne
      rw [List.nil_perm.1 perm]
    have ne' : es' ≠ [] := fun none => ne (List.perm_nil.1 (none ▸ perm))
    have room' : ∀ e ∈ es', e.nesting < d := fun e he => room e (perm.mem_iff.2 he)
    rw [eval_conjunction ne room, eval_conjunction ne' room', Expr.eachSame_of_perm perm]
  · have nonempty : operands ≠ [] := by
      rintro rfl
      cases vs with
      | nil => contradiction
      | cons _ _ => cases given
    have nonempty' : operands' ≠ [] := by
      rintro rfl
      cases vs' with
      | nil => exact ne (List.perm_nil.1 perm)
      | cons _ _ => cases given'
    have compared := eval_comparison nonempty given
    have compared' := eval_comparison nonempty' given'
    rw [← Expr.allSame_of_perm perm] at compared'
    exact ⟨Expr.allSame vs, compared.1, compared'.1, compared.2, compared'.2⟩

/-- The two zeros and a NaN, each in a list, in two orders. -/
theorem sameness_of_zeros :
    let zero : Expr := .list [.number 0, .symbol "a"]
    let minusZero : Expr := .list [.number (-0), .symbol "a"]
    let nan : Expr := .list [.number Binary64.nan, .symbol "a"]
    zero.same minusZero = true ∧ minusZero.same zero = true ∧ zero.same zero = true ∧
    ¬ nan.same nan = true ∧ ¬ Expr.allSame [minusZero, zero, nan] = true ∧
    [zero, minusZero, nan].Perm [nan, minusZero, zero] ∧
    eval 3 (.operation .conjunction [zero, minusZero, nan]) (.start .default) =
      eval 3 (.operation .conjunction [nan, minusZero, zero]) (.start .default) ∧
    ∃ flag,
      eval 4 (.operation .notEqual [zero, minusZero, nan]) (.start .default) =
        .ok (Rule.verdictOf (!flag)) (.start .default) ∧
      eval 4 (.operation .notEqual [nan, minusZero, zero]) (.start .default) =
        .ok (Rule.verdictOf (!flag)) (.start .default) := by
  intro zero minusZero nan
  have alike : zero.same minusZero = true := by decide +kernel
  have perm : [zero, minusZero, nan].Perm [nan, minusZero, zero] :=
    List.reverse_perm [nan, minusZero, zero]
  have room : ∀ e ∈ [zero, minusZero, nan], e.nesting < 2 := by decide +kernel
  have given : [zero, minusZero, nan].mapM (eval 2) (.start .default) =
      .ok ([zero, minusZero, nan].map .value) (.start .default) := rfl
  have given' : [nan, minusZero, zero].mapM (eval 2) (.start .default) =
      .ok ([nan, minusZero, zero].map .value) (.start .default) := rfl
  obtain ⟨symm, trans, self, -, -, pairs, conjunction, comparison⟩ := sameness
  have other : ¬ nan.same nan = true := fun same => absurd ((self nan).1 same) (by decide +kernel)
  obtain ⟨flag, -, -, unequal, unequal'⟩ :=
    comparison 2 2 _ _ _ _ _ _ _ _ (by simp) given given' perm
  refine ⟨alike, symm _ _ alike, trans _ _ _ alike (symm _ _ alike), other, fun all => ?_, perm,
    conjunction 2 _ _ _ perm room, flag, unequal, unequal'⟩
  exact other ((pairs [minusZero, zero, nan] (by decide)).1 all nan (by simp) nan (by simp))

end DynLisp
