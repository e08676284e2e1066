import DynLisp.Proofs.Sameness

/-! # Comparing expressions as they are written

Three operators compare with the first of several expressions: `and` its operands as written, `not` the
items of its operand as written, and `=` the values of its operands.  `and` compares the first operand
with itself too, which the others do not.

* `Expr.eachSame_eq_allSame_iff`: this makes a difference for a single expression with a NaN in it, and
  for nothing else.
* `eval_negation_list`: `not` judges a list as written, once the list has been evaluated.
* `single_operand_with_nan`: for `(and nan)` the verdict is false, although its only operand is written
  like the first one. -/

namespace DynLisp

/-- The comparison of the first one with itself matters only if it stands alone and a NaN is in it. -/
theorem Expr.eachSame_eq_allSame_iff {es : List Expr} :
    eachSame es = allSame es ↔ ∀ e, es = [e] → e.WithoutNaN := by
  match es with
  | [] => simp [eachSame, allSame]
  | [e] =>
      rw [Bool.eq_iff_iff, eachSame_cons_iff]
      simp [allSame]
  | first :: second :: rest => simp [eachSame_eq_allSame]

/-- A list is evaluated, and then judged as it is written. -/
theorem eval_negation_list {d : Nat} {es : List Expr} {m m' : Machine} {outcome : Outcome}
    (evaluated : eval d (.list es) m = .ok outcome m') (room : ∀ e ∈ es, e.nesting < d) :
    eval (d + 1) (.operation .negation [.list es]) m = .ok (Rule.verdictOf (Expr.allSame es)) m' := by
  rw [eval_operation]
  show Rule.negation d (eval d) [.list es] m = _
  rw [Rule.negation, Eval.bind_of_ok evaluated, Rule.opposite, Expr.allSameWithin_of_nesting room]
  rfl

/-- **Comparisons as written.**  What `and` finds of its operands as they are written is what `not`
finds of the list of them, unless the list cannot be evaluated: that all are the same as the first one.
There is one exception: of a single operand with a NaN in it, `and` finds that it is not, and `not` that
it is.  Of a single value, `=` always finds that it is. -/
theorem comparisons_as_written {es : List Expr} (ne : es ≠ []) {d : Nat}
    (room : ∀ e ∈ es, e.nesting < d) (m : Machine) :
    ((∀ e, es = [e] → e.WithoutNaN) →
      eval (d + 1) (.operation .conjunction es) m = .ok (Rule.verdictOf (Expr.allSame es)) m) ∧
    (∀ e, es = [e] → ¬ e.WithoutNaN →
      eval (d + 1) (.operation .conjunction es) m = .ok (Rule.verdictOf false) m ∧
        Expr.allSame es = true) ∧
    (∀ outcome m', eval d (.list es) m = .ok outcome m' →
      eval (d + 1) (.operation .negation [.list es]) m = .ok (Rule.verdictOf (Expr.allSame es)) m') ∧
    (∀ e v m', eval d e m = .ok (.value v) m' →
      eval (d + 2) (.operation .equal [e]) m = .ok (Rule.verdictOf true) m') := by
  rw [eval_conjunction ne room]
  refine ⟨fun ordinary => ?_, ?_, fun _ _ evaluated => eval_negation_list evaluated room, ?_⟩
  · rw [Expr.eachSame_eq_allSame_iff.2 ordinary]
  · rintro e rfl found
    have unlike : Expr.eachSame [e] = false :=
      Bool.eq_false_iff.2 fun each => found (Expr.eachSame_cons_iff.1 each).1
    rw [unlike]
    exact ⟨rfl, rfl⟩
  · intro e v m' evaluated
    have given : [e].mapM (eval d) m = .ok ([v].map .value) m' := by
      rw [List.mapM_cons, Eval.bind_of_ok evaluated]
      rfl
    exact (eval_comparison (by simp) given).1

/-- Two lists that differ in the sign of a zero; and a list with a NaN in it, alone. -/
theorem comparisons_as_written_of_lists :
    eval 3 (.operation .conjunction [.list [.number 0], .list [.number (-0)]]) (.start .default) =
      .ok (Rule.verdictOf true) (.start .default) ∧
    eval 3 (.operation .conjunction [.list [.number Binary64.nan]]) (.start .default) =
      .ok (Rule.verdictOf false) (.start .default) ∧
    eval 4 (.operation .negation [.list [.list [.number Binary64.nan]]]) (.start .default) =
      .ok (Rule.verdictOf true) (.start .default) ∧
    eval 4 (.operation .equal [.list [.number Binary64.nan]]) (.start .default) =
      .ok (Rule.verdictOf true) (.start .default) := by
  have zeros : ∀ e ∈ [Expr.list [.number 0], .list [.number (-0)]], e.nesting < 2 := by
    decide +kernel
  have nan {d : Nat} (h : 1 < d) : ∀ e ∈ [Expr.list [.number Binary64.nan]], e.nesting < d := by
    simpa [Expr.nestingOfItems] using h
  have found : ¬ (Expr.list [.number Binary64.nan]).WithoutNaN := by decide +kernel
  have same : Expr.allSame [.list [.number 0], .list [.number (-0)]] = true := by decide +kernel
  have both := (comparisons_as_written (by simp) zeros (.start .default)).1 (by simp)
  have alone := comparisons_as_written (by simp) (nan (by decide : 1 < 2)) (.start .default)
  have judged := (comparisons_as_written (by simp) (nan (by decide : 1 < 3)) (.start .default)).2.2.1
    (.value _) _ rfl
  rw [same] at both
  exact ⟨both, (alone.2.1 _ rfl found).1, judged, alone.2.2.2 _ _ _ rfl⟩

/-- A NaN as the only operand of `and` is not found to be like the first operand, though `=` finds it of
a NaN that is its only operand, and `not` of one that is the only item of its operand. -/
theorem single_operand_with_nan :
    eval 2 (.operation .conjunction [.number Binary64.nan]) (.start .default) =
      .ok (Rule.verdictOf false) (.start .default) ∧
    Expr.allSame [.number Binary64.nan] = true ∧
    eval 3 (.operation .negation [.list [.number Binary64.nan]]) (.start .default) =
      .ok (Rule.verdictOf true) (.start .default) ∧
    eval 2 (.operation .equal [.number Binary64.nan]) (.start .default) =
      .ok (Rule.verdictOf true) (.start .default) :=
  ⟨rfl, rfl, rfl, rfl⟩

end DynLisp
