import DynLisp.Proofs.Approximation
import DynLisp.Proofs.Correspondence
import DynLisp.Proofs.PartialOperations

/-! # Partial operations stay in their domains

Evaluation by partial operations is evaluation: it ends in the same way with the same effects, and never
by a fault, unless the output stream refuses a line.

* `Agrees x y` compares a computation by partial operations with one without.  Where a line is refused,
  the first stops and the second would have printed the line next.  `Agrees` also says that every frame
  that is left has the mark that it had, which is what a call relies on when it removes the frame it has
  pushed (`agrees_withFrame`).
* Each rule agrees with its counterpart if the evaluations of the parts agree, because its checks stand
  before its operations.  The induction on the allowance is `Guarded.eval_agrees`. -/

namespace DynLisp

namespace Guarded

open Eval (within)

variable {out : Stream} {α β : Type}

/-! ### Agreement -/

/-- The machine at the end of a computation. -/
def lastMachine : EStateM.Result Failure Machine α → Machine
  | .ok _ m => m
  | .error _ m => m

theorem lastMachine_eq_after (y : Eval α) (m : Machine) : lastMachine (y m) = y.after m := by
  unfold Eval.after
  cases y m <;> rfl

/-- The same ending, or a stop at a line that the stream refuses, with frames of these marks. -/
inductive Settles (marks : List Nat) :
    EStateM.Result Stop (MarkedMachine out) α → EStateM.Result Failure Machine α → Prop
  | ok {a : α} {s : MarkedMachine out} : s.marks = marks → Settles marks (.ok a s) (.ok a s.machine)
  | error {e : Failure} {s : MarkedMachine out} : s.marks = marks →
      Settles marks (.error (.failure e) s) (.error e s.machine)
  /-- What is printed is followed by the line, whatever comes after it. -/
  | refused {line : String} {s : MarkedMachine out} {r : EStateM.Result Failure Machine α} :
      s.marks = marks → out.writes line = false →
        s.printed.toList ++ [line] <+: (lastMachine r).printed.toList →
          Settles marks (.error (.fault (.unwritable line)) s) r

/-- From any machine the same ending, but for refused lines, and the marks of the frames stay. -/
structure Agrees (x : Guarded out α) (y : Eval α) : Prop where
  settles : ∀ s, Settles s.marks (x s) (y s.machine)
  prints : y.Keeps Machine.Prints

theorem agrees_pure (a : α) : Agrees (pure a : Guarded out α) (pure a) where
  settles _ := .ok rfl
  prints := effects_prints.keeps_pure a

/-- Computations that fail in the same way at once. -/
theorem agrees_throw (f : Failure) : Agrees (throw (.failure f) : Guarded out α) (throw f) where
  settles _ := .error rfl
  prints m := effects_prints.refl m

theorem agrees_exhaust : Agrees (exhaust : Guarded out α) Eval.exhaust :=
  agrees_throw .exhausted

theorem agrees_environment : Agrees (environment : Guarded out Environment) Eval.environment where
  settles _ := .ok rfl
  prints := effects_prints.keeps_environment

/-- The one operation that may be outside its domain. -/
theorem agrees_printLine (line : String) :
    Agrees (printLine line : Guarded out Unit) (Eval.printLine line) where
  settles s := by
    unfold printLine
    split
    · exact .ok rfl
    · rename_i refuses
      refine .refused rfl (Bool.eq_false_of_not_eq_true refuses) ?_
      show s.printed.toList ++ [line] <+: (s.printed.push line).toList
      rw [Array.toList_push]
  prints := effects_prints.print line

theorem agrees_noteCall (function : String) (arguments : Nat) :
    Agrees (noteCall function arguments : Guarded out Unit) (Eval.noteCall function arguments) where
  settles _ := .ok rfl
  prints := effects_prints.note function arguments

theorem agrees_ofOption (o : Option α) : Agrees (ofOption o : Guarded out α) (Eval.ofOption o) := by
  cases o with
  | none => exact agrees_exhaust
  | some a => exact agrees_pure a

theorem Agrees.bind {x : Guarded out α} {y : Eval α} {f : α → Guarded out β} {g : α → Eval β}
    (hx : Agrees x y) (hf : ∀ a, Agrees (f a) (g a)) : Agrees (x >>= f) (y >>= g) where
  prints := effects_prints.keeps_bind hx.prints fun a => (hf a).prints
  settles s := by
    have first := hx.settles s
    -- what is printed by the first computation stays printed
    have further := effects_prints.rel_after_bind y (fun a => (hf a).prints) s.machine
    rw [← lastMachine_eq_after, ← lastMachine_eq_after] at further
    change Machine.Prints _ (lastMachine (EStateM.bind y g s.machine)) at further
    show Settles s.marks (EStateM.bind x f s) (EStateM.bind y g s.machine)
    unfold EStateM.bind at further ⊢
    revert first further
    generalize x s = r
    generalize y s.machine = r'
    intro first further
    cases first with
    | ok marks =>
        rw [← marks]
        exact (hf _).settles _
    | error marks => exact .error marks
    | refused marks refuses printed => exact .refused marks refuses (printed.trans further)

theorem agrees_mapM {f : α → Guarded out β} {g : α → Eval β} (h : ∀ a, Agrees (f a) (g a))
    (as : List α) : Agrees (as.mapM f) (as.mapM g) := by
  induction as with
  | nil => exact agrees_pure []
  | cons a as ih =>
      rw [List.mapM_cons, List.mapM_cons]
      apply (h a).bind
      intro b
      apply ih.bind
      intro bs
      exact agrees_pure (b :: bs)

/-! ### Writing -/

theorem plain_eq (x : Float) : (plain x : Guarded out String) = pure (Numeral.plain x) := by
  unfold plain Numeral.plain Numeral.plainChars Numeral.scientific
  split
  · rfl
  split
  · cases Binary64.isNegative x <;> rfl
  · rw [String.toList_ofList, Decimal.plainOfScientific?_scientificChars]

theorem mapM_ofOption {f : α → Guarded out β} {g : α → Option β} (h : ∀ a, f a = ofOption (g a))
    (as : List α) : as.mapM f = ofOption (as.mapM g) := by
  induction as with
  | nil => rfl
  | cons a as ih =>
      rw [List.mapM_cons, List.mapM_cons, h a, ih]
      cases g a with
      | none => rfl
      | some b => cases as.mapM g <;> rfl

theorem render_eq (env : Environment) (d : Nat) (e : Expr) :
    (render env d e : Guarded out String) = ofOption (env.render d e) := by
  induction d generalizing e with
  | zero => rfl
  | succ d ih =>
      cases e with
      | number x => exact plain_eq x
      | symbol name =>
          rw [render, Environment.render_symbol]
          cases env.lookup name with
          | none => rfl
          | some b =>
              dsimp only
              split
              · rfl
              · exact ih b.body
      | list items =>
          rw [render, Environment.render_list, mapM_ofOption ih]
          cases items.mapM (env.render d) <;> rfl

mutual

theorem write_eq : ∀ e : Expr, (write e : Guarded out String) = pure e.source
  | .number x => by rw [write, plain_eq, Expr.source]
  | .symbol name => by rw [write, Expr.source]
  | .list items => by rw [write, writeItems_eq items, pure_bind, Expr.intercalate_sources, Expr.source]

theorem writeItems_eq : ∀ items : List Expr,
    (writeItems items : Guarded out (List String)) = pure (items.map Expr.source)
  | [] => rfl
  | item :: rest => by
      rw [writeItems, write_eq item, writeItems_eq rest, pure_bind, pure_bind, List.map_cons]

end

/-- Both ways of failing by an error come to the same failure. -/
theorem exists_failure (d : Nat) (e : EvalError) :
    ∃ f, (∀ α : Type, (fail d e : Guarded out α) = throw (.failure f)) ∧
      ∀ α : Type, (Eval.fail d e : Eval α) = throw f := by
  unfold fail Eval.fail source Expr.sourceWithin
  cases e.shown? with
  | none => exact ⟨.error e, fun _ => rfl, fun _ => rfl⟩
  | some shown =>
      by_cases shallow : shown.nesting < d
      · simp only [if_pos shallow, write_eq, pure_bind]
        exact ⟨.error e, fun _ => rfl, fun _ => rfl⟩
      · simp only [if_neg shallow]
        exact ⟨.exhausted, fun _ => rfl, fun _ => rfl⟩

theorem agrees_fail (d : Nat) (e : EvalError) : Agrees (fail d e : Guarded out α) (Eval.fail d e) := by
  obtain ⟨f, fails, fails'⟩ := exists_failure d e
  rw [fails, fails']
  exact agrees_throw f

/-- After a failed check nothing else is done. -/
theorem agrees_fail_bind (d : Nat) (e : EvalError) (f : α → Guarded out β) :
    Agrees (fail d e >>= f) (Eval.fail d e) := by
  obtain ⟨f, fails, fails'⟩ := exists_failure d e
  rw [fails, fails']
  exact agrees_throw f

/-! ### Frames -/

theorem agrees_bindName (name : String) (b : Binding) :
    Agrees (bindName name b : Guarded out Unit) (Eval.bindName name b) where
  settles s := by
    obtain ⟨stack, next, fresh, printed, written, calls⟩ := s
    cases stack with
    | nil => exact .error rfl
    | cons entry rest => exact .ok rfl
  prints := effects_prints.bind name b

/-- What a machine prints and calls is not touched. -/
structure SameEffects (s s' : MarkedMachine out) : Prop where
  printed : s'.printed = s.printed
  calls : s'.calls = s.calls

theorem bindName_of_stack {s : MarkedMachine out} {mark : Nat} {f : Frame} {rest : List (Nat × Frame)}
    (h : s.stack = (mark, f) :: rest) (name : String) (b : Binding) :
    ∃ s', bindName name b s = .ok () s' ∧ s'.stack = (mark, f.bind name b) :: rest ∧
      SameEffects s s' := by
  obtain ⟨stack, next, fresh, printed, written, calls⟩ := s
  obtain rfl : stack = (mark, f) :: rest := h
  exact ⟨_, rfl, rfl, rfl, rfl⟩

/-- Binding names one by one leaves a machine with these bindings in its innermost frame. -/
theorem bindAll_of_stack (pairs : List (String × Expr)) {s : MarkedMachine out} {mark : Nat} {f : Frame}
    {rest : List (Nat × Frame)} (h : s.stack = (mark, f) :: rest) :
    ∃ s', bindAll pairs s = .ok () s' ∧
      s'.stack = (mark, pairs.foldl (fun f pair => f.bind pair.1 (.ofValue pair.2)) f) :: rest ∧
        SameEffects s s' := by
  induction pairs generalizing s f with
  | nil => exact ⟨s, rfl, h, rfl, rfl⟩
  | cons pair pairs ih =>
      obtain ⟨name, value⟩ := pair
      obtain ⟨s₁, bound, stack, effects⟩ := bindName_of_stack h name (.ofValue value)
      obtain ⟨s₂, others, stack, effects'⟩ := ih stack
      refine ⟨s₂, ?_, stack, effects'.printed.trans effects.printed, effects'.calls.trans effects.calls⟩
      show EStateM.bind (bindName name (.ofValue value)) (fun _ => bindAll pairs) s = _
      simp only [EStateM.bind, bound]
      exact others

/-- A frame with the right mark is removed. -/
theorem popFrame_of_marks {s : MarkedMachine out} {mark : Nat} {marks : List Nat}
    (h : s.marks = mark :: marks) :
    ∃ s', popFrame mark s = .ok () s' ∧ s'.marks = marks ∧
      s'.machine = { s.machine with env := s.machine.env.dropInnermost } := by
  obtain ⟨stack, next, fresh, printed, written, calls⟩ := s
  cases stack with
  | nil => cases h
  | cons entry rest =>
      obtain ⟨top, f⟩ := entry
      obtain ⟨rfl, marks⟩ := List.cons.inj h
      refine ⟨⟨rest, next, fun entry hr => fresh entry (by simp [hr]), printed, written, calls⟩, ?_,
        marks, rfl⟩
      simp [popFrame]

theorem agrees_withFrame {body : Guarded out α} {body' : Eval α} (h : Agrees body body')
    (pairs : List (String × Expr)) :
    Agrees (withFrame pairs body) (Eval.within (.ofValues pairs) body') where
  prints := effects_prints.keeps_within _ h.prints
  settles s := by
    let pushed : MarkedMachine out := { s with
      stack := (s.next, .empty) :: s.stack
      next := s.next + 1
      fresh := List.forall_mem_cons.2
        ⟨Nat.lt_succ_self _, fun entry h => Nat.lt_succ_of_lt (s.fresh entry h)⟩ }
    obtain ⟨s₁, bound, stack, effects⟩ := bindAll_of_stack pairs (s := pushed) rfl
    have marks : s₁.marks = s.next :: s.marks := by
      rw [MarkedMachine.marks, stack]
      rfl
    have machine : s₁.machine = { s.machine with env := s.machine.env.push (.ofValues pairs) } := by
      rw [MarkedMachine.machine, stack, effects.printed, effects.calls]
      rfl
    have run : withFrame pairs body s = ensuring body (popFrame s.next) s₁ := by
      show ensuring (EStateM.bind (bindAll pairs) fun _ => body) (popFrame s.next) pushed = _
      simp only [ensuring, EStateM.bind, bound]
    have inside := h.settles s₁
    rw [run, ensuring, Eval.within, ← machine]
    revert inside
    generalize body s₁ = r
    generalize body' s₁.machine = r'
    intro inside
    cases inside with
    | ok kept =>
        obtain ⟨s₂, popped, left, dropped⟩ := popFrame_of_marks (kept.trans marks)
        simp only [popped, ← dropped]
        exact .ok left
    | error kept =>
        obtain ⟨s₂, popped, left, dropped⟩ := popFrame_of_marks (kept.trans marks)
        simp only [popped, ← dropped]
        exact .error left
    | @refused line s' _ kept refuses printed =>
        obtain ⟨s₂, popped, left, dropped⟩ := popFrame_of_marks (kept.trans marks)
        have same : s₂.printed = s'.printed := congrArg Machine.printed dropped
        simp only [popped]
        refine .refused left refuses ?_
        rw [same]
        cases r' <;> exact printed

/-! ### Rules -/

section

variable (d : Nat) {ev : Expr → Guarded out Outcome} {ev' : Evaluator} (hev : ∀ e, Agrees (ev e) (ev' e))

include hev

theorem agrees_valueOf (e : Expr) (noValue : EvalError) :
    Agrees (valueOf d ev e noValue) (ev'.valueOf d e noValue) := by
  apply (hev e).bind
  rintro (v | _)
  · exact agrees_pure v
  · exact agrees_fail d noValue

theorem agrees_numericOperand (op : Arithmetic) (operand : Expr) :
    Agrees (numericOperand d ev op operand) (Rule.operandNumber d ev' op operand) := by
  apply (agrees_valueOf d hev operand _).bind
  intro value
  cases value with
  | number x => exact agrees_pure x
  | symbol name => exact agrees_fail d (.notANumber op (.symbol name))
  | list items => exact agrees_fail d (.notANumber op (.list items))

omit hev in
/-- The divisor is checked before the division. -/
theorem combine_eq (op : Arithmetic) (a b : Float) :
    (combine op a b : Guarded out Float) = pure (op.combine a b) := by
  cases op with
  | sum | difference | product => rfl
  | quotient =>
      show (divide a b : Guarded out Float) = pure (Arithmetic.divide a b)
      unfold divide Arithmetic.divide quotient
      split <;> rfl

omit hev in
theorem reduce_cons (op : Arithmetic) (x : Float) (xs : List Float) :
    (reduce (combine op) (x :: xs) : Guarded out Float) = pure (xs.foldl op.combine x) := by
  have pure_combine : (combine op : Float → Float → Guarded out Float) =
      fun a b => pure (op.combine a b) :=
    funext fun a => funext fun b => combine_eq op a b
  rw [reduce, pure_combine, List.foldlM_pure]

theorem agrees_arithmetic (op : Arithmetic) (operands : List Expr) :
    Agrees (arithmetic d ev op operands) (Rule.arithmetic d ev' op operands) := by
  cases operands with
  | nil => exact agrees_fail_bind d (.operandCount (.arithmetic op)) _
  | cons operand rest =>
      have steps : arithmetic d ev op (operand :: rest) = (do
          let x ← numericOperand d ev op operand
          let xs ← rest.mapM (numericOperand d ev op)
          return .value (.number (xs.foldl op.combine x))) := by
        show (do let xs ← (operand :: rest).mapM (numericOperand d ev op)
                 let x ← reduce (combine op) xs
                 return Outcome.value (.number x)) = _
        rw [List.mapM_cons]
        simp only [bind_assoc, pure_bind, reduce_cons]
      rw [steps]
      apply (agrees_numericOperand d hev op operand).bind
      intro x
      apply (agrees_mapM (agrees_numericOperand d hev op) rest).bind
      intro xs
      exact agrees_pure _

omit hev in
theorem allSame_eq (values : List Expr) :
    (allSame d values : Guarded out Bool) = ofOption (Expr.allSameWithin d values) := by
  cases values <;> rfl

theorem agrees_comparison (op : Operator) (flip : Bool) (operands : List Expr) :
    Agrees (comparison d ev op flip operands) (Rule.comparison d ev' op flip operands) := by
  cases operands with
  | nil => exact agrees_fail_bind d (.operandCount op) _
  | cons operand rest =>
      apply (agrees_mapM (fun operand => agrees_valueOf d hev operand .unitCompared) _).bind
      intro values
      rw [allSame_eq]
      apply (agrees_ofOption _).bind
      intro same
      exact agrees_pure _

omit hev in
theorem agrees_conjunction (operands : List Expr) :
    Agrees (conjunction d operands : Guarded out Outcome) (Rule.conjunction d operands) := by
  cases operands with
  | nil => exact agrees_fail d (.operandCount .conjunction)
  | cons operand rest =>
      apply (agrees_ofOption _).bind
      intro same
      exact agrees_pure _

omit hev in
theorem agrees_disjunction (operands : List Expr) :
    Agrees (disjunction d operands : Guarded out Outcome) (Rule.disjunction d operands) := by
  cases operands with
  | nil => exact agrees_fail d (.operandCount .disjunction)
  | cons operand rest => exact agrees_pure _

theorem agrees_negation (operands : List Expr) :
    Agrees (negation d ev operands) (Rule.negation d ev' operands) := by
  have count : Agrees (fail d (.operandCount .negation) : Guarded out Outcome) (Eval.fail d _) :=
    agrees_fail d (.operandCount .negation)
  rcases operands with _ | ⟨operand, _ | ⟨next, rest⟩⟩
  · exact count
  · apply (hev operand).bind
    intro _
    cases operand with
    | number x => exact agrees_fail d (.notAVerdict (.number x))
    | symbol name =>
        simp only [Expr.name?, Option.some.injEq, Rule.opposite]
        split
        · exact agrees_pure _
        split
        · exact agrees_pure _
        · exact agrees_fail d (.notAVerdict (.symbol name))
    | list items =>
        have judged : Agrees
            (do return Rule.verdictOf (← ofOption (Expr.allSameWithin d items)) : Guarded out Outcome)
            (Rule.opposite d (.list items)) := by
          apply (agrees_ofOption _).bind
          intro same
          exact agrees_pure _
        rw [← allSame_eq] at judged
        exact judged
  · exact count

theorem agrees_defineVariable (operands : List Expr) :
    Agrees (defineVariable d ev operands) (Rule.defineVariable d ev' operands) := by
  have count : Agrees (fail d (.operandCount .defineVariable) : Guarded out Outcome) (Eval.fail d _) :=
    agrees_fail d (.operandCount .defineVariable)
  have shape : Agrees (fail d .variableShape : Guarded out Outcome) (Eval.fail d .variableShape) :=
    agrees_fail d .variableShape
  rcases operands with _ | ⟨target, _ | ⟨definition, _ | ⟨next, rest⟩⟩⟩
  · exact count
  · simp only [Rule.defineVariable]
    exact count
  · cases target with
    | number x => exact shape
    | list items => exact shape
    | symbol name =>
        apply (agrees_valueOf d hev definition .unitBound).bind
        intro value
        apply (agrees_bindName name (.ofValue value)).bind
        intro _
        exact agrees_pure _
  · simp only [Rule.defineVariable]
    exact count

omit hev in
/-- The parameters are checked before their names are taken. -/
theorem names_cases (params : List Expr) :
    (params.all Expr.isSymbol ∧ ∃ names, params.mapM Expr.name? = some names ∧
        (params.mapM nameOf : Guarded out (List String)) = pure names) ∨
      (params.all Expr.isSymbol = false ∧ params.mapM Expr.name? = none) := by
  induction params with
  | nil => exact .inl ⟨rfl, [], rfl, rfl⟩
  | cons param params ih =>
      rw [List.all_cons, List.mapM_cons, List.mapM_cons]
      cases param with
      | number x => exact .inr ⟨rfl, rfl⟩
      | list items => exact .inr ⟨rfl, rfl⟩
      | symbol name =>
          rcases ih with ⟨all, names, named, taken⟩ | ⟨other, unnamed⟩
          · exact .inl ⟨by rw [all]; rfl, name :: names, by rw [named]; rfl, by rw [taken]; rfl⟩
          · exact .inr ⟨by rw [other]; rfl, by rw [unnamed]; rfl⟩

omit hev in
theorem agrees_defineFunction (operands : List Expr) :
    Agrees (defineFunction d operands : Guarded out Outcome) (Rule.defineFunction d operands) := by
  have count : Agrees (fail d (.operandCount .defineFunction) : Guarded out Outcome) (Eval.fail d _) :=
    agrees_fail d (.operandCount .defineFunction)
  have shape : Agrees (fail d .functionShape : Guarded out Outcome) (Eval.fail d .functionShape) :=
    agrees_fail d .functionShape
  rcases operands with _ | ⟨target, _ | ⟨params, _ | ⟨body, _ | ⟨next, rest⟩⟩⟩⟩
  · exact count
  · simp only [Rule.defineFunction]
    exact count
  · simp only [Rule.defineFunction]
    exact count
  · cases target with
    | number x => exact shape
    | list items => exact shape
    | symbol name =>
        cases params with
        | number x => exact shape
        | symbol other => exact shape
        | list params =>
            show Agrees (if params.all Expr.isSymbol then do
                  let names ← params.mapM nameOf
                  bindName name ⟨names, body⟩
                  return Outcome.unit
                else fail d .parameterShape : Guarded out Outcome) _
            simp only [Rule.defineFunction]
            rcases names_cases params with ⟨all, names, named, taken⟩ | ⟨other, unnamed⟩
            · rw [if_pos all, named, taken, pure_bind]
              apply (agrees_bindName name ⟨names, body⟩).bind
              intro _
              exact agrees_pure _
            · rw [if_neg (by simp [other]), unnamed]
              exact agrees_fail d .parameterShape
  · simp only [Rule.defineFunction]
    exact count

theorem agrees_conditional (operands : List Expr) :
    Agrees (conditional d ev operands) (Rule.conditional d ev' operands) := by
  have count : Agrees (fail d (.operandCount .conditional) : Guarded out Outcome) (Eval.fail d _) :=
    agrees_fail d (.operandCount .conditional)
  rcases operands with _ | ⟨condition, _ | ⟨first, _ | ⟨second, _ | ⟨next, rest⟩⟩⟩⟩
  · exact count
  · exact count
  · exact count
  · apply (agrees_valueOf d hev condition .unitCondition).bind
    intro value
    apply (hev _).bind
    intro _
    exact hev first
  · exact count

omit hev in
theorem agrees_print (operands : List Expr) :
    Agrees (print d operands : Guarded out Outcome) (Rule.print d operands) := by
  apply agrees_environment.bind
  intro env
  rw [mapM_ofOption (render_eq env d)]
  apply (agrees_ofOption _).bind
  intro texts
  apply (agrees_printLine _).bind
  intro _
  exact agrees_pure _

theorem agrees_items (es : List Expr) : Agrees (items ev es) (Rule.items ev' es) := by
  apply (agrees_mapM hev es).bind
  intro outcomes
  exact agrees_pure _

theorem agrees_call (function : String) (b : Binding) (args : List Expr) :
    Agrees (call d ev function b args) (Rule.call d ev' function b args) := by
  unfold call Rule.call
  by_cases enough : args.length = b.params.length
  · rw [if_neg (not_not.2 enough), if_pos enough]
    apply (agrees_mapM (fun arg => agrees_valueOf d hev arg .unitArgument) args).bind
    intro values
    apply (agrees_noteCall function values.length).bind
    intro _
    exact agrees_withFrame (hev b.body) _
  · rw [if_pos enough, if_neg enough]
    exact agrees_fail d _

theorem agrees_name (head : String) (args : List Expr) :
    Agrees (name d ev head args) (Rule.name d ev' head args) := by
  apply agrees_environment.bind
  intro env
  cases env.lookup head with
  | none => exact agrees_pure _
  | some b =>
      dsimp only
      split
      · exact agrees_call d hev head b args
      · exact hev b.body

theorem agrees_run (op : Operator) (operands : List Expr) :
    Agrees (run d ev op operands) (op.run d ev' operands) := by
  cases op with
  | arithmetic op => exact agrees_arithmetic d hev op operands
  | equal => exact agrees_comparison d hev .equal false operands
  | notEqual => exact agrees_comparison d hev .notEqual true operands
  | negation => exact agrees_negation d hev operands
  | conjunction => exact agrees_conjunction d operands
  | disjunction => exact agrees_disjunction d operands
  | defineFunction => exact agrees_defineFunction d operands
  | defineVariable => exact agrees_defineVariable d hev operands
  | print => exact agrees_print d operands
  | conditional => exact agrees_conditional d hev operands

end

/-! ### Evaluation -/

/-- A list that begins with a symbol has the form that the environment decides. -/
theorem settles_headed (d : Nat) {ev : Expr → Guarded out Outcome} {ev' : Evaluator}
    (hev : ∀ e, Agrees (ev e) (ev' e)) (head : String) (rest : List Expr) (s : MarkedMachine out) :
    Settles s.marks (headed d ev head rest s)
      ((s.machine.env.form (.list (.symbol head :: rest))).run d ev' s.machine) := by
  unfold headed reserved
  cases reserves : Operator.ofName? head with
  | some op =>
      simp only [Environment.form, reserves]
      exact (agrees_run d hev op rest).settles s
  | none =>
      show Settles s.marks ((if s.machine.env.contains head then name d ev head rest
        else items ev (.symbol head :: rest)) s) _
      simp only [Environment.form, reserves]
      split
      · exact (agrees_name d hev head rest).settles s
      · exact (agrees_items hev _).settles s

/-- Evaluation by partial operations agrees with evaluation. -/
theorem eval_agrees : ∀ (d : Nat) (e : Expr), Agrees (eval d e : Guarded out Outcome) (DynLisp.eval d e)
  | 0, _ => agrees_exhaust
  | _ + 1, .number x => agrees_pure (Outcome.value (.number x))
  | d + 1, .symbol head => agrees_name d (eval_agrees d) head []
  | _ + 1, .list [] => agrees_pure (Outcome.value (.list []))
  | d + 1, .list (.symbol head :: rest) =>
      { settles := settles_headed d (eval_agrees d) head rest
        prints := effects_prints.eval_keeps (d + 1) _ }
  | d + 1, .list (.number x :: rest) => agrees_items (eval_agrees d) (.number x :: rest)
  | d + 1, .list (.list inner :: rest) => agrees_items (eval_agrees d) (.list inner :: rest)

theorem machine_start (env : Environment) :
    (MarkedMachine.start env : MarkedMachine out).machine = .start env := by
  obtain ⟨frames⟩ := env
  simp [MarkedMachine.machine, MarkedMachine.start, Machine.start, Function.comp_def]

/-! ### Reports -/

/-- The first line that the stream refuses, if there is one. -/
def refused? (out : Stream) (lines : List String) : Option String :=
  lines.find? fun line => !out.writes line

theorem refused?_eq_none {lines : List String} (h : ∀ line ∈ lines, out.writes line) :
    refused? out lines = none := by
  refine List.find?_eq_none.2 fun line hl => ?_
  rw [h line hl]
  decide

theorem refused?_eq_some {lines taken : List String} {line : String}
    (h : ∀ line ∈ taken, out.writes line) (refuses : out.writes line = false)
    (first : taken ++ [line] <+: lines) : refused? out lines = some line := by
  obtain ⟨rest, rfl⟩ := first
  rw [refused?, List.append_assoc, List.find?_append, show taken.find? _ = none from refused?_eq_none h,
    Option.none_or]
  simp [refuses]

/-- What a machine has printed, its stream has taken. -/
theorem refused?_printed (s : MarkedMachine out) : refused? out s.printed.toList = none :=
  refused?_eq_none fun line h => s.written line (Array.mem_toList_iff.1 h)

/-- The report on an evaluation that prints to a stream: it is the report without the stream, unless the
stream refuses a line. -/
theorem evaluate_eq (allowed : Session.Allowance) (env : Environment) (e : Expr) :
    evaluate out allowed env e =
      match refused? out (Session.evaluate allowed env e).printed with
      | none => .ok (Session.evaluate allowed env e)
      | some line => .error (.unwritable line) := by
  have settled := (eval_agrees allowed.evaluations e).settles (.start env : MarkedMachine out)
  rw [machine_start] at settled
  unfold evaluate Session.evaluate
  revert settled
  generalize eval allowed.evaluations e (.start env : MarkedMachine out) = r
  generalize DynLisp.eval allowed.evaluations e (.start env) = r'
  intro settled
  cases settled with
  | @ok outcome s _ => simp only [MarkedMachine.machine, refused?_printed]
  | @error failure s _ =>
      cases failure with
      | error cause => simp only [MarkedMachine.machine, refused?_printed]
      | exhausted => simp only [MarkedMachine.machine, refused?_printed]
  | @refused line s _ _ refuses printed =>
      have first := refused?_eq_some (fun line hl => s.written line (Array.mem_toList_iff.1 hl))
        refuses printed
      cases r' with
      | ok outcome m =>
          simp only [lastMachine] at first
          simp only [first]
      | error failure m =>
          simp only [lastMachine] at first
          simp only [first]

/-- **Partial operations stay in their domains.**  From any machine, with frames or without, every
expression is evaluated by partial operations to an outcome, an error or exhaustion, as it is without
them, unless the output stream refuses a line; and calls have removed the frames they have pushed, so that
every other frame is where it was.  A refused line is the only fault, and it is the first line printed that
the stream does not take.  Therefore, where the stream has every character, there is no fault at all, and a
run always has a report. -/
theorem evaluation_without_fault (out : Stream) :
    (∀ (d : Nat) (e : Expr) (s : MarkedMachine out),
      Settles s.marks (eval d e s) (DynLisp.eval d e s.machine)) ∧
    (∀ (allowed : Session.Allowance) (env : Environment) (e : Expr),
      evaluate out allowed env e =
        match refused? out (Session.evaluate allowed env e).printed with
        | none => .ok (Session.evaluate allowed env e)
        | some line => .error (.unwritable line)) ∧
    ((∀ c, out.encodes c) →
      (∀ (d : Nat) (e : Expr) (s s' : MarkedMachine out) (f : Fault),
        eval d e s ≠ .error (.fault f) s') ∧
      ∀ (allowed : Session.Allowance) (env : Environment) (e : Expr),
        evaluate out allowed env e = .ok (Session.evaluate allowed env e)) := by
  refine ⟨fun d e => (eval_agrees d e).settles, evaluate_eq, fun encodes => ⟨?_, ?_⟩⟩
  · intro d e s s' f fault
    have settled := (eval_agrees d e).settles s
    rw [fault] at settled
    cases settled with
    | refused _ refuses _ =>
        rw [Stream.writes_of_encodes encodes] at refuses
        cases refuses
  · intro allowed env e
    have taken : refused? out (Session.evaluate allowed env e).printed = none :=
      refused?_eq_none fun line _ => Stream.writes_of_encodes encodes line
    rw [evaluate_eq, taken]

/-- Two lines, of which a stream without characters beyond ASCII takes the first. -/
theorem evaluation_of_two_lines :
    let printing : Expr :=
      .list [.list [.symbol "print", .symbol "a"], .list [.symbol "print", .symbol "é"]]
    (∀ c, Stream.unicode.encodes c) ∧
    evaluate .unicode ⟨2, 3⟩ .default printing = .ok ⟨.value (.list []), .default, ["a", "é"], []⟩ ∧
    evaluate .ascii ⟨2, 3⟩ .default printing = .error (.unwritable "é") := by
  intro printing
  have encodes : ∀ c, Stream.unicode.encodes c := fun _ => rfl
  have report : Session.evaluate ⟨2, 3⟩ .default printing =
      ⟨.value (.list []), .default, ["a", "é"], []⟩ := rfl
  have refused : refused? .ascii ["a", "é"] = some "é" := by decide +kernel
  refine ⟨encodes, ?_, ?_⟩
  · rw [((evaluation_without_fault .unicode).2.2 encodes).2, report]
  · rw [(evaluation_without_fault .ascii).2.1, report]
    simp only [refused]

end Guarded
end DynLisp
