import DynLisp.Proofs.Approximation
import DynLisp.Proofs.Conditions

/-! # Branches that are evaluated twice

Where a condition counts as true its first branch is evaluated twice: because it is chosen, and for the
value of the whole.  Where it counts as false the first branch is evaluated once.  Of conditionals in
first branches of conditionals the repetitions multiply, which the value of the whole does not show.

* `Eval.repeated n x` is `x` so many times in a row.
* `Layer` is a conditional around its first branch, with constants in the other places, and
  `Layer.nest` puts such conditionals around an expression.
* `Layer.eval_around` says what one layer does, and `Layer.eval_nest` from this what all of them do: the
  expression is evaluated twice as often for each layer whose condition is a number.
* `nested_conditionals_repeat`: so a print form there prints its line as often. -/

namespace DynLisp

/-! ### Repetition -/

namespace Eval

/-- Computes so many times in a row, and has the last result. -/
def repeated : Nat → Eval Outcome → Eval Outcome
  | 0, _ => pure .unit
  | 1, x => x
  | n + 2, x => do
    let _ ← x
    repeated (n + 1) x

theorem repeated_add_two (n : Nat) (x : Eval Outcome) :
    repeated (n + 2) x = (do let _ ← x; repeated (n + 1) x) := by
  rw [repeated]

/-- First some of the times, then the others. -/
theorem repeated_add (x : Eval Outcome) : ∀ a b : Nat,
    repeated (a + 1 + (b + 1)) x = (do let _ ← repeated (a + 1) x; repeated (b + 1) x)
  | 0, b => by
      rw [Nat.zero_add, Nat.add_comm 1 (b + 1)]
      exact repeated_add_two b x
  | a + 1, b => by
      have others := repeated_add x a b
      have sum : a + 1 + 1 + (b + 1) = a + b + 1 + 2 := by omega
      have sum' : a + 1 + (b + 1) = a + b + 1 + 1 := by omega
      rw [sum'] at others
      rw [sum, repeated_add_two (a + b + 1), repeated_add_two a, bind_assoc, others]

theorem repeated_two_mul (x : Eval Outcome) {n : Nat} (pos : 0 < n) :
    repeated (2 * n) x = (do let _ ← repeated n x; repeated n x) := by
  obtain ⟨n, rfl⟩ := Nat.exists_eq_add_of_le' pos
  rw [Nat.two_mul]
  exact repeated_add x n n

/-- What fails, fails the first time. -/
theorem repeated_of_error {x : Eval Outcome} {m m' : Machine} {failure : Failure}
    (h : x m = .error failure m') : ∀ {n : Nat}, 0 < n → repeated n x m = .error failure m'
  | 1, _ => h
  | n + 2, _ => by rw [repeated_add_two, bind_of_error h]

/-- What prints a line prints it each time. -/
theorem repeated_of_print {x : Eval Outcome} {env : Environment} {line : String}
    (h : ∀ m, m.env = env → x m = .ok .unit { m with printed := m.printed.push line }) :
    ∀ (n : Nat) {m : Machine}, m.env = env →
      repeated n x m = .ok .unit { m with printed := m.printed ++ Array.replicate n line }
  | 0, m, _ => by
      rw [Array.replicate_zero, Array.append_empty]
      rfl
  | 1, m, here => by
      rw [repeated, h m here, Array.push_eq_append]
      rfl
  | n + 2, m, here => by
      have others := repeated_of_print h (n + 1) (m := { m with printed := m.printed.push line }) here
      rw [repeated_add_two, bind_of_ok (h m here), others]
      simp only [Array.push_eq_append, Array.append_assoc, Array.replicate_succ' (n := n + 1)]

end Eval

/-! ### Conditionals around an expression -/

/-- A conditional around its first branch.  The condition is a number or the empty list, and the second
branch is a number. -/
structure Layer where
  /-- The number, if the condition is one. -/
  condition : Option Float
  second : Float

namespace Layer

/-- The conditional with this first branch. -/
def around (l : Layer) (first : Expr) : Expr :=
  .conditional (l.condition.elim (.list []) .number) first (.number l.second)

/-- The conditionals around one another and around the innermost expression, outermost first. -/
def nest (layers : List Layer) (innermost : Expr) : Expr :=
  layers.foldr around innermost

/-- The layers whose condition counts as true. -/
def trueCount (layers : List Layer) : Nat :=
  layers.countP (·.condition.isSome)

theorem trueCount_cons (l : Layer) (layers : List Layer) :
    trueCount (l :: layers) = trueCount layers + if l.condition.isSome then 1 else 0 :=
  List.countP_cons

/-- The first branch is evaluated twice where the condition is a number, and once otherwise. -/
theorem eval_around (l : Layer) (d : Nat) (e : Expr) :
    eval (d + 1) (l.around e) = Eval.repeated (if l.condition.isSome then 2 else 1) (eval d e) := by
  obtain ⟨condition, second⟩ := l
  funext m
  cases d with
  | zero => cases condition <;> rfl
  | succ d =>
      cases condition with
      | none =>
          have value : eval (d + 1) (.list []) m = .ok (.value (.list [])) m := rfl
          exact eval_conditional value e (.number second)
      | some x =>
          have value : eval (d + 1) (.number x) m = .ok (.value (.number x)) m := rfl
          exact eval_conditional value e (.number second)

/-- Each layer takes one nested evaluation.  If they are fewer than the layers, nothing is evaluated. -/
theorem eval_nest : ∀ (layers : List Layer) (e : Expr) (d : Nat),
    eval d (nest layers e) = Eval.repeated (2 ^ trueCount layers) (eval (d - layers.length) e)
  | [], _, _ => rfl
  | l :: layers, e, 0 => by
      funext m
      rw [Nat.zero_sub]
      exact (Eval.repeated_of_error rfl (Nat.two_pow_pos _)).symm
  | l :: layers, e, d + 1 => by
      have step : eval (d + 1) (nest (l :: layers) e) = _ := l.eval_around d (nest layers e)
      rw [step, eval_nest layers e d, List.length_cons, Nat.add_sub_add_right, trueCount_cons]
      cases l.condition with
      | none => rfl
      | some x =>
          rw [Option.isSome_some, if_pos rfl, if_pos rfl, Nat.pow_succ',
            Eval.repeated_two_mul _ (Nat.two_pow_pos _)]
          rfl

end Layer

/-! ### Print forms -/

/-- What is rendered by some nested calls is rendered alike by any number that is enough. -/
theorem Environment.mapM_render_cases {env : Environment} {d : Nat} {operands : List Expr}
    {texts : List String} (h : operands.mapM (env.render d) = some texts) (d' : Nat) :
    operands.mapM (env.render d') = some texts ∨
      d' < d ∧ operands.mapM (env.render d') = none := by
  cases rendered : operands.mapM (env.render d') with
  | none =>
      refine .inr ⟨Nat.lt_of_not_le fun enough => ?_, rfl⟩
      rw [mapM_of_some (fun e text => env.render_of_le enough) h] at rendered
      cases rendered
  | some texts' =>
      -- both are the rendering by the greater of the two allowances
      have same := mapM_of_some (fun e text => env.render_of_le (Nat.le_max_right d d')) rendered
      rw [mapM_of_some (fun e text => env.render_of_le (Nat.le_max_left d d')) h] at same
      exact .inl same.symm

/-- A print form in nested conditionals. -/
theorem Layer.endsWithin_nest_print (layers : List Layer) {d : Nat} {operands : List Expr}
    {texts : List String} {m : Machine} (rendered : operands.mapM (m.env.render d) = some texts) :
    m.EndsWithin (d + 1 + layers.length) (nest layers (.operation .print operands)) .unit
      { m with
        printed := m.printed ++ Array.replicate (2 ^ trueCount layers) (" ".intercalate texts) } := by
  intro d'
  have pos : 0 < 2 ^ trueCount layers := Nat.two_pow_pos _
  rw [eval_nest]
  cases left : d' - layers.length with
  | zero => exact .inr ⟨by omega, Eval.repeated_of_error rfl pos⟩
  | succ remaining =>
      rcases Environment.mapM_render_cases rendered remaining with shown | ⟨few, shown⟩
      · have prints : ∀ m', m'.env = m.env →
            eval (remaining + 1) (.operation .print operands) m' =
              .ok .unit { m' with printed := m'.printed.push (" ".intercalate texts) } := by
          intro m' here
          rw [eval_operation]
          exact Rule.print_of_some (here ▸ shown)
        exact .inl (Eval.repeated_of_print prints _ rfl)
      · have fails : eval (remaining + 1) (.operation .print operands) m = .error .exhausted m := by
          rw [eval_operation]
          exact Rule.print_of_none shown
        exact .inr ⟨by omega, Eval.repeated_of_error fails pos⟩

/-- **Nested conditionals repeat.**  Let conditionals stand in first branches of one another around an
expression, each with a number or the empty list as condition and a number as second branch, and let `m`
of the conditions be numbers.  Then the expression is evaluated `2 ^ m` times, and nothing else is done.
So a print form there whose operands can be rendered prints its line `2 ^ m` times; the whole has no
value and leaves every frame as it was.  If the nested evaluations are too few, nothing is printed. -/
theorem nested_conditionals_repeat (layers : List Layer) :
    (∀ (e : Expr) (d : Nat), eval d (Layer.nest layers e) =
      Eval.repeated (2 ^ Layer.trueCount layers) (eval (d - layers.length) e)) ∧
    ∀ (env : Environment) (operands : List Expr) (depth : Nat) (texts : List String),
      operands.mapM (env.render depth) = some texts →
      (∀ m : Machine, m.env = env →
        m.EndsWithin (depth + 1 + layers.length) (Layer.nest layers (.operation .print operands)) .unit
          { m with
            printed := m.printed ++
              Array.replicate (2 ^ Layer.trueCount layers) (" ".intercalate texts) }) ∧
      ∀ allowed : Session.Allowance, depth + 1 + layers.length ≤ allowed.evaluations →
        Session.evaluate allowed env (Layer.nest layers (.operation .print operands)) =
          ⟨.unit, env, List.replicate (2 ^ Layer.trueCount layers) (" ".intercalate texts), []⟩ := by
  refine ⟨Layer.eval_nest layers, fun env operands depth texts rendered => ⟨?_, ?_⟩⟩
  · rintro m rfl
    exact Layer.endsWithin_nest_print layers rendered
  · intro allowed room
    have rendered : operands.mapM ((Machine.start env).env.render depth) = some texts := rendered
    rw [Session.evaluate, (Layer.endsWithin_nest_print layers rendered).eval room]
    simp only [Machine.start, Array.empty_append, Array.toList_replicate]
    rfl

/-- `(if 0 (if () (if -1 (print x y) 2) 3) 4)` where `x` stands for the list `(a)`: four lines. -/
theorem nested_conditionals_print_four_lines :
    let layers : List Layer := [⟨some 0, 4⟩, ⟨none, 3⟩, ⟨some (-1), 2⟩]
    let env : Environment := Environment.default.push ⟨[("x", .ofValue (.list [.symbol "a"]))]⟩
    let operands : List Expr := [.symbol "x", .symbol "y"]
    let allowed : Session.Allowance := ⟨4, 7⟩
    Layer.nest layers (.operation .print operands) =
      .conditional (.number 0) (.conditional (.list [])
        (.conditional (.number (-1)) (.operation .print operands) (.number 2)) (.number 3)) (.number 4) ∧
    operands.mapM (env.render 3) = some ["(a)", "y"] ∧
    Session.evaluate allowed env (Layer.nest layers (.operation .print operands)) =
      ⟨.unit, env, ["(a) y", "(a) y", "(a) y", "(a) y"], []⟩ := by
  intro layers env operands allowed
  have rendered : operands.mapM (env.render 3) = some ["(a)", "y"] := by decide +kernel
  have lines : List.replicate (2 ^ Layer.trueCount layers) (" ".intercalate ["(a)", "y"]) =
      ["(a) y", "(a) y", "(a) y", "(a) y"] := by decide +kernel
  have evaluated :=
    ((nested_conditionals_repeat layers).2 env operands 3 _ rendered).2 allowed (by decide)
  rw [lines] at evaluated
  exact ⟨rfl, rendered, evaluated⟩

end DynLisp
