import DynLisp.Proofs.Conditions
import DynLisp.Proofs.ListProgram

/-! # Values that stand for themselves

Values are expressions, and a value that is evaluated again need not stay what it is: its symbols may
be bound by then, and a list of values may have become an operation or a call.

* `Environment.Inert` holds for the values where this cannot happen: no symbol in them is bound, and no
  list in them begins with a reserved name.
* `Environment.Inert.endsWithin`: they evaluate to themselves and change nothing.
* `Environment.inert_iff_of_bind`: binding a name makes a value with this name in it stop being inert,
  and does nothing to any other value.
* `inert_values_stay`: a variable that stands for an inert value gives it at each use. -/

namespace DynLisp

/-- A value without bound symbols and without lists that begin with a reserved name. -/
inductive Environment.Inert (env : Environment) : Expr → Prop
  | number (x : Float) : Inert env (.number x)
  | symbol {name : String} : env.lookup name = none → Inert env (.symbol name)
  | list {items : List Expr} : (∀ item ∈ items, Inert env item) →
      (∀ name, items.head? = some (.symbol name) → Operator.ofName? name = none) →
      Inert env (.list items)

/-- Computations that change nothing: if they all have a result, so do they in a row, and otherwise the
row is exhausted for the same want. -/
theorem Eval.mapM_of_unchanged {α β : Type} {f : α → Eval β} {g : α → β} {m : Machine} {few : Prop} :
    ∀ {as : List α}, (∀ a ∈ as, f a m = .ok (g a) m ∨ few ∧ f a m = .error .exhausted m) →
      as.mapM f m = .ok (as.map g) m ∨ few ∧ as.mapM f m = .error .exhausted m
  | [], _ => .inl rfl
  | a :: as, h => by
      rw [List.forall_mem_cons] at h
      rw [List.mapM_cons]
      rcases h.1 with first | ⟨want, exhausted⟩
      · rw [bind_of_ok first]
        rcases mapM_of_unchanged h.2 with others | ⟨want, exhausted⟩
        · left
          rw [bind_of_ok others]
          rfl
        · exact .inr ⟨want, bind_of_error exhausted⟩
      · exact .inr ⟨want, bind_of_error exhausted⟩

@[simp] theorem Rule.values_map_value (es : List Expr) : values (es.map .value) = es := by
  induction es with
  | nil => rfl
  | cons e es ih => exact congrArg (e :: ·) ih

namespace Environment.Inert

variable {env : Environment}

theorem lookup_eq_none {name : String} (h : env.Inert (.symbol name)) : env.lookup name = none := by
  cases h with
  | symbol unbound => exact unbound

/-- The items of an inert list are evaluated as items: it is no operation and begins with no bound
name. -/
theorem eval_list {m : Machine} {items : List Expr} (ne : items ≠ [])
    (h : m.env.Inert (.list items)) (d : Nat) :
    eval (d + 1) (.list items) m = Rule.items (eval d) items m := by
  cases h with
  | list inert unreserved =>
      refine eval_items ne fun name first => ⟨unreserved name first, ?_⟩
      have unbound := (inert _ (List.mem_of_head? first)).lookup_eq_none
      rw [Environment.contains_eq_isSome_lookup, unbound]
      rfl

/-- An inert value evaluates to itself, which takes one more nested evaluation than it has lists inside
one another. -/
theorem endsWithin {e : Expr} {m : Machine} (h : m.env.Inert e) :
    m.EndsWithin (e.nesting + 1) e (.value e) m := by
  induction h with
  | number x => exact .of_succ fun d => .inl rfl
  | symbol unbound => exact .of_succ fun d => .inl (eval_symbol_unbound unbound)
  | @list items inert unreserved ih =>
      refine .of_succ fun d => ?_
      by_cases ne : items = []
      · subst ne
        exact .inl rfl
      have each : ∀ item ∈ items, eval d item m = .ok (.value item) m ∨
          d < Expr.nestingOfItems items + 1 ∧ eval d item m = .error .exhausted m := by
        intro item hitem
        have nested := Expr.nesting_le_nestingOfItems hitem
        exact (ih item hitem d).imp_right (And.imp_left fun few => by omega)
      rw [eval_list ne (.list inert unreserved), Expr.nesting_list]
      rcases Eval.mapM_of_unchanged each with evaluated | ⟨few, exhausted⟩
      · left
        rw [Rule.items_of_ok evaluated, Rule.values_map_value]
      · exact .inr ⟨few, Rule.items_of_error exhausted⟩

/-! ### Binding names -/

theorem lookup_of_mem_names {v : Expr} (h : env.Inert v) {name : String} (hn : name ∈ v.names) :
    env.lookup name = none := by
  induction h with
  | number x => simp at hn
  | symbol unbound =>
      obtain rfl : name = _ := by simpa using hn
      exact unbound
  | list _ _ ih =>
      rw [Expr.names_list] at hn
      obtain ⟨item, hitem, hn⟩ := List.mem_flatMap.1 hn
      exact ih item hitem hn

/-- Inertness is a matter of the names in the value only. -/
theorem of_unbound {env' : Environment} {v : Expr} (h : env.Inert v)
    (unbound : ∀ name ∈ v.names, env'.lookup name = none) : env'.Inert v := by
  induction h with
  | number x => exact .number x
  | symbol _ => exact .symbol (unbound _ (by simp))
  | @list items _ unreserved ih =>
      refine .list (fun item hitem => ih item hitem fun name hn => unbound name ?_) unreserved
      rw [Expr.names_list]
      exact List.mem_flatMap.2 ⟨item, hitem, hn⟩

end Environment.Inert

/-- A value is inert after a name is bound exactly if it was before and the name is not in it. -/
theorem Environment.inert_iff_of_bind {env left : Environment} {x : String} {b : Binding}
    (bound : env.bind x b = .ok left) {v : Expr} : left.Inert v ↔ env.Inert v ∧ x ∉ v.names := by
  have looked := lookup_of_bind bound
  constructor
  · intro h
    have fresh : x ∉ v.names := by
      intro hx
      have unbound := h.lookup_of_mem_names hx
      rw [looked, if_pos rfl] at unbound
      cases unbound
    refine ⟨h.of_unbound fun name hn => ?_, fresh⟩
    have unbound := h.lookup_of_mem_names hn
    rwa [looked, if_neg (ne_of_mem_of_not_mem hn fresh)] at unbound
  · rintro ⟨h, fresh⟩
    refine h.of_unbound fun name hn => ?_
    rw [looked, if_neg (ne_of_mem_of_not_mem hn fresh)]
    exact h.lookup_of_mem_names hn

theorem eval_inert {e : Expr} {m : Machine} (h : m.env.Inert e) {d : Nat} (room : e.nesting < d) :
    eval d e m = .ok (.value e) m :=
  h.endsWithin.eval room

/-! ### Variables -/

theorem eval_defineVariable {d : Nat} {x : String} {definition v : Expr} {m m' : Machine}
    {left : Environment} (h : eval d definition m = .ok (.value v) m')
    (bound : m'.env.bind x (.ofValue v) = .ok left) :
    eval (d + 1) (.operation .defineVariable [.symbol x, definition]) m =
      .ok .unit { m' with env := left } := by
  rw [eval_operation]
  show Rule.defineVariable d (eval d) [.symbol x, definition] m = _
  rw [Rule.defineVariable, Eval.bind_of_ok (Evaluator.valueOf_of_value h d .unitBound),
    Eval.bind_of_ok (Eval.bindName_of_ok bound)]
  rfl

/-- A list that begins with a variable is evaluated as what the variable stands for; its operands are
not evaluated. -/
theorem eval_variable_with_operands {d : Nat} {x : String} {v : Expr} {m : Machine}
    (unreserved : Operator.ofName? x = none) (bound : m.env.lookup x = some (.ofValue v))
    (operands : List Expr) : eval (d + 1) (.list (.symbol x :: operands)) m = eval d v m := by
  show (m.env.form _).run d (eval d) m = _
  rw [Environment.form_of_lookup unreserved bound]
  show Rule.name d (eval d) x operands m = _
  rw [Rule.name_of_lookup bound]
  rfl

/-- **Inert values stay what they are.**  An inert value evaluates to itself, and nothing else happens.
A variable definition binds the name to the value of its second operand; the value is inert afterwards
exactly if it was before and the name is not in it.  Wherever the variable still stands for the value
and the value is inert, in particular right after the definition if it is inert there, the variable
evaluates to the value, and nothing else happens.  So does a list that begins with the variable, unless
the name is reserved: whatever the operands are, only the value is evaluated. -/
theorem inert_values_stay :
    (∀ (m : Machine) (v : Expr), m.env.Inert v → m.EndsWithin (v.nesting + 1) v (.value v) m) ∧
    ∀ (d : Nat) (m m' : Machine) (x : String) (definition v : Expr) (left : Environment),
      eval d definition m = .ok (.value v) m' → m'.env.bind x (.ofValue v) = .ok left →
      eval (d + 1) (.operation .defineVariable [.symbol x, definition]) m =
        .ok .unit { m' with env := left } ∧
      left.lookup x = some (.ofValue v) ∧
      (left.Inert v ↔ m'.env.Inert v ∧ x ∉ v.names) ∧
      ∀ later : Machine, later.env.lookup x = some (.ofValue v) → later.env.Inert v →
        later.EndsWithin (v.nesting + 2) (.symbol x) (.value v) later ∧
        (Operator.ofName? x = none → ∀ operands,
          (∀ d, eval (d + 1) (.list (.symbol x :: operands)) later = eval d v later) ∧
          later.EndsWithin (v.nesting + 2) (.list (.symbol x :: operands)) (.value v) later) := by
  refine ⟨fun m v h => h.endsWithin, ?_⟩
  intro d m m' x definition v left evaluated binds
  have bound : left.lookup x = some (.ofValue v) := by
    rw [Environment.lookup_of_bind binds, if_pos rfl]
  refine ⟨eval_defineVariable evaluated binds, bound, Environment.inert_iff_of_bind binds, ?_⟩
  intro later stands inert
  refine ⟨.of_succ fun d => ?_, fun unreserved operands => ⟨fun d => ?_, .of_succ fun d => ?_⟩⟩
  · rw [eval_symbol_variable stands]
    exact inert.endsWithin d
  · exact eval_variable_with_operands unreserved stands operands
  · rw [eval_variable_with_operands unreserved stands operands]
    exact inert.endsWithin d

/-- The value `(1 y)` of a definition that prints a line; what is written after the variable neither
prints another line nor fails. -/
theorem stored_list_stays :
    let v : Expr := .list [.number 1, .symbol "y"]
    let left : Environment := ⟨[Environment.verdictFrame.bind "x" (.ofValue v)]⟩
    eval 4 (.operation .defineVariable [.symbol "x",
        .list [.operation .print [.symbol "a"], .number 1, .symbol "y"]]) (.start .default) =
      .ok .unit ⟨left, #["a"], #[]⟩ ∧
    left.Inert v ∧
    eval 3 (.list [.symbol "x", .operation .print [.symbol "b"], .list [.symbol "+"]])
      ⟨left, #["a"], #[]⟩ = .ok (.value v) ⟨left, #["a"], #[]⟩ := by
  intro v left
  have evaluated : eval 3 (.list [.operation .print [.symbol "a"], .number 1, .symbol "y"])
      (.start .default) = .ok (.value v) ⟨.default, #["a"], #[]⟩ := rfl
  have before : Environment.default.Inert v := by
    refine .list (List.forall_mem_cons.2 ⟨.number 1, ?_⟩) (by simp)
    exact List.forall_mem_cons.2 ⟨.symbol rfl, by simp⟩
  obtain ⟨defined, bound, still, later⟩ :=
    inert_values_stay.2 3 _ _ "x" _ v left evaluated rfl
  have inert : left.Inert v := still.2 ⟨before, by decide +kernel⟩
  have used := later ⟨left, #["a"], #[]⟩ bound inert
  exact ⟨defined, inert, (used.2 rfl _).2.eval (by decide +kernel)⟩

end DynLisp
