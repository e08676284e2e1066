import DynLisp.Evaluation

/-! # What evaluation may do to the machine

An evaluation touches the machine by four effects only: it prints a line, notes a call, binds a name
in the innermost frame, and works for a while with one frame more.

* `Eval.after x m` is the machine that `x` leaves when it starts from `m`, however it ends.
* `Eval.Keeps R x` says that `R` holds between the machine before and the machine after, for every
  machine `x` may start from.
* `Effects R` says that `R` is a preorder that holds across each of the four effects.

`eval_keeps` is the induction over evaluations, made once: a relation that holds across the effects
holds across every evaluation, whatever its outcome and wherever the allowance runs out. -/

namespace DynLisp
namespace Eval

variable {α β : Type} {R : Machine → Machine → Prop}

/-- The machine that a computation leaves, however it ends. -/
def after (x : Eval α) (m : Machine) : Machine :=
  match x m with
  | .ok _ m' => m'
  | .error _ m' => m'

theorem after_of_ok {x : Eval α} {m m' : Machine} {a : α} (h : x m = .ok a m') :
    x.after m = m' := by
  simp [after, h]

theorem after_of_error {x : Eval α} {m m' : Machine} {e : Failure} (h : x m = .error e m') :
    x.after m = m' := by
  simp [after, h]

theorem bind_of_ok {x : Eval α} {f : α → Eval β} {m m' : Machine} {a : α} (h : x m = .ok a m') :
    (x >>= f) m = f a m' := by
  show EStateM.bind x f m = _
  simp [EStateM.bind, h]

theorem bind_of_error {x : Eval α} {f : α → Eval β} {m m' : Machine} {e : Failure}
    (h : x m = .error e m') : (x >>= f) m = .error e m' := by
  show EStateM.bind x f m = _
  simp [EStateM.bind, h]

theorem environment_bind (f : Environment → Eval α) (m : Machine) :
    (environment >>= f) m = f m.env m := rfl

theorem bindName_of_ok {name : String} {b : Binding} {m : Machine} {env : Environment}
    (h : m.env.bind name b = .ok env) : bindName name b m = .ok () { m with env := env } := by
  rw [bindName, h]

theorem bindName_of_error {name : String} {b : Binding} {m : Machine} {cause : ScopeError}
    (h : m.env.bind name b = .error cause) : bindName name b m = .error (.error (.scope cause)) m := by
  rw [bindName, h]

theorem after_fail (d : Nat) (e : EvalError) (m : Machine) : (fail d e : Eval α).after m = m := by
  unfold fail
  split
  · split <;> rfl
  · rfl

/-- However the body ends, its frame is dropped. -/
theorem after_within (f : Frame) (body : Eval α) (m : Machine) :
    (Eval.within f body).after m =
      { body.after { m with env := m.env.push f } with
        env := (body.after { m with env := m.env.push f }).env.dropInnermost } := by
  cases h : body { m with env := m.env.push f } <;> simp [after, Eval.within, h]

/-- `R` holds between the machine before and after, however the computation ends. -/
def Keeps (R : Machine → Machine → Prop) (x : Eval α) : Prop :=
  ∀ m, R m (x.after m)

end Eval

theorem Evaluator.valueOf_of_value {ev : Evaluator} {e v : Expr} {m m' : Machine}
    (h : ev e m = .ok (.value v) m') (d : Nat) (noValue : EvalError) :
    ev.valueOf d e noValue m = .ok v m' := by
  rw [valueOf, Eval.bind_of_ok h]
  rfl

/-! ### Names and print forms -/

/-- A list that begins with a bound name is this name with arguments, unless the name is reserved. -/
theorem Environment.form_of_lookup {env : Environment} {name : String} {b : Binding}
    (unreserved : Operator.ofName? name = none) (bound : env.lookup name = some b)
    (args : List Expr) : env.form (.list (.symbol name :: args)) = .name name args := by
  have contained : env.contains name := by
    rw [contains_eq_isSome_lookup, bound]
    rfl
  simp only [form, unreserved, contained, if_true]

theorem Rule.name_of_lookup {d : Nat} {ev : Evaluator} {x : String} {b : Binding} {m : Machine}
    (bound : m.env.lookup x = some b) (args : List Expr) :
    Rule.name d ev x args m = (if b.isFunction then call d ev x b args else ev b.body) m := by
  rw [Rule.name, Eval.environment_bind, bound]

section
variable {d : Nat} {operands : List Expr} {texts : List String} {m : Machine}

theorem Rule.print_of_some (h : operands.mapM (m.env.render d) = some texts) :
    print d operands m = .ok .unit { m with printed := m.printed.push (" ".intercalate texts) } := by
  rw [print, Eval.environment_bind, h]
  rfl

theorem Rule.print_of_none (h : operands.mapM (m.env.render d) = none) :
    print d operands m = .error .exhausted m := by
  rw [print, Eval.environment_bind, h]
  rfl

end

/-! ### Relations that the effects keep -/

/-- A preorder on machines that holds across everything an evaluation does to its machine. -/
structure Effects (R : Machine → Machine → Prop) : Prop where
  refl : ∀ m, R m m
  trans : ∀ {m m' m''}, R m m' → R m' m'' → R m m''
  print : ∀ line, (Eval.printLine line).Keeps R
  note : ∀ function arguments, (Eval.noteCall function arguments).Keeps R
  bind : ∀ name b, (Eval.bindName name b).Keeps R
  within : ∀ {m m' : Machine} (f : Frame), R { m with env := m.env.push f } m' →
    R m { m' with env := m'.env.dropInnermost }

namespace Effects

open Eval

variable {α β : Type} {R : Machine → Machine → Prop} (hR : Effects R)

include hR

/-! ### Computations -/

theorem keeps_pure (a : α) : (pure a : Eval α).Keeps R := fun m => hR.refl m

theorem keeps_exhaust : (exhaust : Eval α).Keeps R := fun m => hR.refl m

theorem keeps_environment : environment.Keeps R := fun m => hR.refl m

/-- What follows a computation changes the machine that the computation leaves. -/
theorem rel_after_bind (x : Eval α) {f : α → Eval β} (hf : ∀ a, (f a).Keeps R) (m : Machine) :
    R (x.after m) ((x >>= f).after m) := by
  cases h : x m with
  | ok a m' =>
      have e : (x >>= f).after m = (f a).after m' := by simp only [after, bind_of_ok h]
      rw [after_of_ok h, e]
      exact hf a m'
  | error failure m' =>
      rw [after_of_error h, after_of_error (bind_of_error h)]
      exact hR.refl m'

theorem keeps_bind {x : Eval α} {f : α → Eval β} (hx : x.Keeps R) (hf : ∀ a, (f a).Keeps R) :
    (x >>= f).Keeps R := fun m =>
  hR.trans (hx m) (hR.rel_after_bind x hf m)

theorem keeps_mapM {f : α → Eval β} (hf : ∀ a, (f a).Keeps R) :
    ∀ as : List α, (as.mapM f).Keeps R
  | [] => hR.keeps_pure []
  | a :: as => by
      rw [List.mapM_cons]
      apply hR.keeps_bind (hf a)
      intro b
      exact hR.keeps_bind (keeps_mapM hf as) fun bs => hR.keeps_pure (b :: bs)

theorem keeps_ofOption (a : Option α) : (ofOption a).Keeps R := by
  cases a with
  | none => exact hR.keeps_exhaust
  | some a => exact hR.keeps_pure a

theorem keeps_fail (d : Nat) (e : EvalError) : (fail d e : Eval α).Keeps R := by
  intro m
  rw [after_fail]
  exact hR.refl m

theorem keeps_within (f : Frame) {body : Eval α} (hb : body.Keeps R) :
    (Eval.within f body).Keeps R := by
  intro m
  rw [after_within]
  exact hR.within f (hb { m with env := m.env.push f })

/-! ### Rules

Each rule keeps what the evaluator of the parts keeps. -/

variable {ev : Evaluator} (hev : ∀ e, (ev e).Keeps R)

include hev

theorem keeps_valueOf (d : Nat) (e : Expr) (noValue : EvalError) :
    (ev.valueOf d e noValue).Keeps R := by
  apply hR.keeps_bind (hev e)
  intro outcome
  cases outcome with
  | value v => exact hR.keeps_pure v
  | unit => exact hR.keeps_fail d noValue

theorem keeps_operandNumber (d : Nat) (op : Arithmetic) (operand : Expr) :
    (Rule.operandNumber d ev op operand).Keeps R := by
  apply hR.keeps_bind (hR.keeps_valueOf hev d operand _)
  intro value
  cases value with
  | number x => exact hR.keeps_pure x
  | symbol name => exact hR.keeps_fail d _
  | list items => exact hR.keeps_fail d _

theorem keeps_arithmetic (d : Nat) (op : Arithmetic) (operands : List Expr) :
    (Rule.arithmetic d ev op operands).Keeps R := by
  cases operands with
  | nil => exact hR.keeps_fail d (.operandCount (.arithmetic op))
  | cons first rest =>
      apply hR.keeps_bind (hR.keeps_operandNumber hev d op first)
      intro x
      exact hR.keeps_bind (hR.keeps_mapM (hR.keeps_operandNumber hev d op) rest) fun xs =>
        hR.keeps_pure _

theorem keeps_comparison (d : Nat) (op : Operator) (flip : Bool) (operands : List Expr) :
    (Rule.comparison d ev op flip operands).Keeps R := by
  cases operands with
  | nil => exact hR.keeps_fail d (.operandCount op)
  | cons first rest =>
      apply hR.keeps_bind (hR.keeps_mapM (fun e => hR.keeps_valueOf hev d e _) _)
      intro values
      exact hR.keeps_bind (hR.keeps_ofOption _) fun same => hR.keeps_pure _

theorem keeps_negation (d : Nat) (operands : List Expr) :
    (Rule.negation d ev operands).Keeps R := by
  unfold Rule.negation
  split
  · rename_i operand
    apply hR.keeps_bind (hev operand)
    intro _
    -- the operand is judged as written, so nothing more is evaluated
    unfold Rule.opposite
    split
    · split
      · exact hR.keeps_pure _
      · split
        · exact hR.keeps_pure _
        · exact hR.keeps_fail d _
    · exact hR.keeps_bind (hR.keeps_ofOption _) fun same => hR.keeps_pure _
    · exact hR.keeps_fail d _
  · exact hR.keeps_fail d _

theorem keeps_defineVariable (d : Nat) (operands : List Expr) :
    (Rule.defineVariable d ev operands).Keeps R := by
  unfold Rule.defineVariable
  split
  · apply hR.keeps_bind (hR.keeps_valueOf hev d _ _)
    intro value
    exact hR.keeps_bind (hR.bind _ _) fun _ => hR.keeps_pure _
  · exact hR.keeps_fail d _
  · exact hR.keeps_fail d _

theorem keeps_conditional (d : Nat) (operands : List Expr) :
    (Rule.conditional d ev operands).Keeps R := by
  unfold Rule.conditional
  split
  · apply hR.keeps_bind (hR.keeps_valueOf hev d _ _)
    intro value
    exact hR.keeps_bind (hev _) fun _ => hev _
  · exact hR.keeps_fail d _

theorem keeps_items (es : List Expr) : (Rule.items ev es).Keeps R :=
  hR.keeps_bind (hR.keeps_mapM hev es) fun _ => hR.keeps_pure _

theorem keeps_call (d : Nat) (name : String) (b : Binding) (args : List Expr) :
    (Rule.call d ev name b args).Keeps R := by
  unfold Rule.call
  split
  · apply hR.keeps_bind (hR.keeps_mapM (fun e => hR.keeps_valueOf hev d e _) _)
    intro values
    apply hR.keeps_bind (hR.note _ _)
    intro _
    exact hR.keeps_within _ (hev b.body)
  · exact hR.keeps_fail d _

theorem keeps_name (d : Nat) (name : String) (args : List Expr) :
    (Rule.name d ev name args).Keeps R := by
  apply hR.keeps_bind hR.keeps_environment
  intro env
  cases env.lookup name with
  | none => exact hR.keeps_pure _
  | some b =>
      show (if b.isFunction then Rule.call d ev name b args else ev b.body).Keeps R
      split
      · exact hR.keeps_call hev d name b args
      · exact hev b.body

omit hev

theorem keeps_conjunction (d : Nat) (operands : List Expr) :
    (Rule.conjunction d operands).Keeps R := by
  cases operands with
  | nil => exact hR.keeps_fail d (.operandCount .conjunction)
  | cons first rest => exact hR.keeps_bind (hR.keeps_ofOption _) fun same => hR.keeps_pure _

theorem keeps_disjunction (d : Nat) (operands : List Expr) :
    (Rule.disjunction d operands).Keeps R := by
  cases operands with
  | nil => exact hR.keeps_fail d (.operandCount .disjunction)
  | cons first rest => exact hR.keeps_pure _

theorem keeps_defineFunction (d : Nat) (operands : List Expr) :
    (Rule.defineFunction d operands).Keeps R := by
  unfold Rule.defineFunction
  split
  · split
    · exact hR.keeps_bind (hR.bind _ _) fun _ => hR.keeps_pure _
    · exact hR.keeps_fail d _
  · exact hR.keeps_fail d _
  · exact hR.keeps_fail d _

theorem keeps_print (d : Nat) (operands : List Expr) : (Rule.print d operands).Keeps R := by
  apply hR.keeps_bind hR.keeps_environment
  intro env
  apply hR.keeps_bind (hR.keeps_ofOption _)
  intro texts
  exact hR.keeps_bind (hR.print _) fun _ => hR.keeps_pure _

/-! ### Evaluation -/

include hev

theorem keeps_run_operator (d : Nat) (op : Operator) (operands : List Expr) :
    (op.run d ev operands).Keeps R := by
  cases op with
  | arithmetic op => exact hR.keeps_arithmetic hev d op operands
  | equal => exact hR.keeps_comparison hev d .equal false operands
  | notEqual => exact hR.keeps_comparison hev d .notEqual true operands
  | negation => exact hR.keeps_negation hev d operands
  | conjunction => exact hR.keeps_conjunction d operands
  | disjunction => exact hR.keeps_disjunction d operands
  | defineFunction => exact hR.keeps_defineFunction d operands
  | defineVariable => exact hR.keeps_defineVariable hev d operands
  | print => exact hR.keeps_print d operands
  | conditional => exact hR.keeps_conditional hev d operands

theorem keeps_run_form (d : Nat) (form : Form) : (form.run d ev).Keeps R := by
  cases form with
  | constant e => exact hR.keeps_pure _
  | operation op operands => exact hR.keeps_run_operator hev d op operands
  | name x args => exact hR.keeps_name hev d x args
  | items es => exact hR.keeps_items hev es

omit hev

/-- A relation that holds across the effects holds across every evaluation. -/
theorem eval_keeps : ∀ (d : Nat) (e : Expr), (eval d e).Keeps R
  | 0, _ => hR.keeps_exhaust
  | d + 1, e => by
      apply hR.keeps_bind hR.keeps_environment
      intro env
      exact hR.keeps_run_form (eval_keeps d) d (env.form e)

end Effects
end DynLisp
