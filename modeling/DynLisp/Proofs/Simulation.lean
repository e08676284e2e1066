import DynLisp.Proofs.Correspondence
import DynLisp.Proofs.Effects

/-! # Evaluations that correspond

Expressions that are alike are evaluated alike where the environments are.

* `Machine.Alike` compares environments, what is printed and what is called.  It also fixes the bindings
  that are set aside, on either side, since no evaluation changes them.
* `Eval.Alike Q x y`: from machines that are alike, `x` and `y` end alike, with results related by `Q`,
  and leave machines that are alike.
* `eval_alike` is the induction on the allowance.  Each rule is like itself as soon as the evaluations
  of the parts are, because rules tell names apart only by comparing them with one another, with the
  reserved names and with the verdicts. -/

namespace DynLisp

/-! ### Machines -/

namespace Outcome

/-- Values that are alike, or none on either side. -/
inductive Alike (c : Correspondence) : Outcome → Outcome → Prop
  | value {e e' : Expr} : e.Alike c e' → Alike c (.value e) (.value e')
  | unit : Alike c .unit .unit

end Outcome

/-- Errors of one kind, and the same error if the names are the same. -/
structure EvalError.Alike (c : Correspondence) (e e' : EvalError) : Prop where
  kind : e.kind = e'.kind
  exact : c.Exact → e = e'

/-- Errors that are alike, or exhaustion on either side. -/
inductive Failure.Alike (c : Correspondence) : Failure → Failure → Prop
  | error {e e' : EvalError} : e.Alike c e' → Alike c (.error e) (.error e')
  | exhausted : Alike c .exhausted .exhausted

/-- Calls of functions that stand for one another, with as many arguments. -/
structure Call.Alike (c : Correspondence) (call call' : Call) : Prop where
  function : c.Pairs call.function call'.function
  arguments : call.arguments = call'.arguments

/-- Machines whose environments are alike, which have printed as many lines and called as many functions,
and where `left` and `right` are the bindings that are set aside. -/
structure Machine.Alike (c : Correspondence) (left right : List (List (String × Binding)))
    (m m' : Machine) : Prop where
  env : m.env.Alike c m'.env
  left : m.env.setAside c = left
  right : m'.env.setAside c = right
  printed : List.Forall₂ c.Texts m.printed.toList m'.printed.toList
  calls : List.Forall₂ (Call.Alike c) m.calls.toList m'.calls.toList

theorem forall₂_push {α β : Type} {R : α → β → Prop} {as : Array α} {bs : Array β} {a : α} {b : β}
    (h : List.Forall₂ R as.toList bs.toList) (hab : R a b) :
    List.Forall₂ R (as.push a).toList (bs.push b).toList := by
  rw [Array.toList_push, Array.toList_push]
  exact List.rel_append h (.cons hab .nil)

/-! ### Computations -/

namespace Eval

variable {α α' β β' : Type} {c : Correspondence}

/-- From machines that are alike, both end alike and leave machines that are alike. -/
def Alike (c : Correspondence) (Q : α → α' → Prop) (x : Eval α) (y : Eval α') : Prop :=
  ∀ ⦃left right m m'⦄, m.Alike c left right m' →
    match x m, y m' with
    | .ok a m, .ok a' m' => Q a a' ∧ m.Alike c left right m'
    | .error e m, .error e' m' => e.Alike c e' ∧ m.Alike c left right m'
    | _, _ => False

theorem alike_pure {Q : α → α' → Prop} {a : α} {a' : α'} (h : Q a a') :
    (pure a : Eval α).Alike c Q (pure a') :=
  fun _ _ _ _ hm => ⟨h, hm⟩

theorem alike_exhaust (Q : α → α' → Prop) : (exhaust : Eval α).Alike c Q exhaust :=
  fun _ _ _ _ hm => ⟨.exhausted, hm⟩

theorem alike_environment : environment.Alike c (Environment.Alike c) environment :=
  fun _ _ _ _ hm => ⟨hm.env, hm⟩

theorem alike_ofOption {Q : α → α' → Prop} {o : Option α} {o' : Option α'} (h : Option.Rel Q o o') :
    (ofOption o).Alike c Q (ofOption o') := by
  cases h with
  | none => exact alike_exhaust Q
  | some h => exact alike_pure h

theorem alike_printLine {line line' : String} (h : c.Texts line line') :
    (printLine line).Alike c (fun _ _ => True) (printLine line') :=
  fun _ _ _ _ hm => ⟨trivial, { hm with printed := forall₂_push hm.printed h }⟩

theorem alike_noteCall {s t : String} (pair : c.Pairs s t) (arguments : Nat) :
    (noteCall s arguments).Alike c (fun _ _ => True) (noteCall t arguments) :=
  fun _ _ _ _ hm => ⟨trivial, { hm with calls := forall₂_push hm.calls ⟨pair, rfl⟩ }⟩

theorem Alike.bind {x : Eval α} {y : Eval α'} {f : α → Eval β} {g : α' → Eval β'}
    {Q : α → α' → Prop} {P : β → β' → Prop} (hx : x.Alike c Q y)
    (hf : ∀ a a', Q a a' → (f a).Alike c P (g a')) : (x >>= f).Alike c P (y >>= g) := by
  intro left right m m' hm
  have first := hx hm
  cases h : x m <;> cases h' : y m' <;> rw [h, h'] at first
  · rw [bind_of_ok h, bind_of_ok h']
    exact hf _ _ first.1 first.2
  · exact first.elim
  · exact first.elim
  · rw [bind_of_error h, bind_of_error h']
    exact first

theorem alike_mapM {R : α → α' → Prop} {Q : β → β' → Prop} {f : α → Eval β} {g : α' → Eval β'}
    (h : ∀ a a', R a a' → (f a).Alike c Q (g a')) {as : List α} {as' : List α'}
    (each : List.Forall₂ R as as') : (as.mapM f).Alike c (List.Forall₂ Q) (as'.mapM g) := by
  induction each with
  | nil => exact alike_pure .nil
  | cons first rest ih =>
      rw [List.mapM_cons, List.mapM_cons]
      apply (h _ _ first).bind
      intro b b' hb
      apply ih.bind
      intro bs bs' hbs
      exact alike_pure (.cons hb hbs)

/-- Errors that are alike, and show expressions that are alike, are alike as failures. -/
theorem alike_fail (d : Nat) (e e' : EvalError) (h : e.Alike c e')
    (shown : Option.Rel (Expr.Alike c) e.shown? e'.shown?) (Q : α → α' → Prop) :
    (fail d e : Eval α).Alike c Q (fail d e') := by
  have thrown : (throw (.error e) : Eval α).Alike c Q (throw (.error e')) :=
    fun _ _ _ _ hm => ⟨.error h, hm⟩
  unfold fail
  rcases rel_cases shown with ⟨plain, plain'⟩ | ⟨v, v', shows, shows', alike⟩
  · rw [plain, plain']
    exact thrown
  rw [shows, shows']
  rcases rel_cases (alike.sourceWithin (d := d)) with ⟨deep, deep'⟩ | ⟨_, _, written, written', -⟩
  · simp only [deep, deep']
    exact alike_exhaust Q
  · simp only [written, written']
    exact thrown

/-- An error that shows no expression is like itself. -/
theorem alike_fail_same (d : Nat) (e : EvalError) (h : e.shown? = none) (Q : α → α' → Prop) :
    (fail d e : Eval α).Alike c Q (fail d e) :=
  alike_fail d e e ⟨rfl, fun _ => rfl⟩ (h ▸ .none) Q

theorem alike_bindName {s t : String} (pair : c.Pairs s t) {b b' : Binding} (hb : b.Alike c b') :
    (bindName s b).Alike c (fun _ _ => True) (bindName t b') := by
  intro left right m m' hm
  unfold bindName
  rcases Environment.bind_alike hm.env pair hb with
    ⟨cause, failed, failed'⟩ | ⟨after, after', bound, bound', alike, kept, kept'⟩
  · rw [failed, failed']
    exact ⟨.error ⟨rfl, fun _ => rfl⟩, hm⟩
  · rw [bound, bound']
    exact ⟨trivial,
      { hm with env := alike, left := kept.trans hm.left, right := kept'.trans hm.right }⟩

theorem Alike.within {x : Eval α} {y : Eval α'} {Q : α → α' → Prop} (h : x.Alike c Q y)
    {f f' : Frame} (hf : f.Alike c f') : (Eval.within f x).Alike c Q (Eval.within f' y) := by
  intro left right m m' hm
  have pushed : Machine.Alike c (f.setAside c :: left) (f'.setAside c :: right)
      { m with env := m.env.push f } { m' with env := m'.env.push f' } :=
    { hm with
      env := hm.env.push hf
      left := by rw [Environment.setAside_push, hm.left]
      right := by rw [Environment.setAside_push, hm.right] }
  have dropped {left right l r m m'} (hm : Machine.Alike c (l :: left) (r :: right) m m') :
      Machine.Alike c left right { m with env := m.env.dropInnermost }
        { m' with env := m'.env.dropInnermost } :=
    { hm with
      env := hm.env.dropInnermost
      left := by rw [Environment.setAside_dropInnermost, hm.left, List.tail_cons]
      right := by rw [Environment.setAside_dropInnermost, hm.right, List.tail_cons] }
  have inside := h pushed
  unfold Eval.within
  revert inside
  generalize x { m with env := m.env.push f } = r, y { m' with env := m'.env.push f' } = r'
  intro inside
  cases r <;> cases r'
  · exact ⟨inside.1, dropped inside.2⟩
  · exact inside.elim
  · exact inside.elim
  · exact ⟨inside.1, dropped inside.2⟩

end Eval

/-- Evaluations that end alike. -/
abbrev EvalAlike (c : Correspondence) (x y : Eval Outcome) : Prop :=
  x.Alike c (Outcome.Alike c) y

/-! ### Rules

Each rule applied to operands that are alike is alike if the evaluations of the parts are. -/

namespace Rule

open Eval

variable {c : Correspondence} (d : Nat) {ev ev' : Evaluator}
  (hev : ∀ e e' : Expr, e.Alike c e' → EvalAlike c (ev e) (ev' e'))
  {operands operands' : List Expr} (h : List.Forall₂ (Expr.Alike c) operands operands')

theorem alike_verdictOf (flag : Bool) : EvalAlike c (pure (verdictOf flag)) (pure (verdictOf flag)) :=
  alike_pure (.value (.symbol (c.verdict flag)))

theorem alike_unit : EvalAlike c (pure .unit) (pure .unit) :=
  alike_pure .unit

theorem rel_eq {α : Type} (o : Option α) : Option.Rel Eq o o := by
  cases o with
  | none => exact .none
  | some a => exact .some rfl

include h

theorem alike_conjunction : EvalAlike c (conjunction d operands) (conjunction d operands') := by
  cases h with
  | nil => exact alike_fail_same d (.operandCount .conjunction) rfl _
  | @cons first first' rest rest' alike others =>
      have compared : (first :: rest).allM (first.sameWithin d) =
          (first' :: rest').allM (first'.sameWithin d) :=
        allM_of_forall₂ (fun _ _ item => alike.sameWithin_eq item) (.cons alike others)
      simp only [conjunction, compared]
      apply (alike_ofOption (rel_eq _)).bind
      rintro same _ rfl
      exact alike_verdictOf same

theorem any_true_of_alike :
    operands.any (·.same (.verdict true)) = operands'.any (·.same (.verdict true)) := by
  induction h with
  | nil => rfl
  | @cons e e' rest rest' alike others ih =>
      -- a depth of one is enough to compare with a symbol
      have compared := alike.sameWithin_eq (d := 1) (.symbol (c.verdict true))
      have same : e.same (.verdict true) = e'.same (.verdict true) := by
        cases alike with
        | symbol pair => simpa only [Expr.sameWithin, Expr.verdict, Option.some.injEq] using compared
        | number x => rfl
        | list items => simp only [Expr.same, Expr.verdict]
      rw [List.any_cons, List.any_cons, same, ih]

theorem alike_disjunction : EvalAlike c (disjunction d operands) (disjunction d operands') := by
  have any := any_true_of_alike h
  cases h with
  | nil => exact alike_fail_same d (.operandCount .disjunction) rfl _
  | cons alike others =>
      simp only [disjunction, any]
      exact alike_verdictOf _

omit h in
theorem alike_opposite {operand operand' : Expr} (h : operand.Alike c operand') :
    EvalAlike c (opposite d operand) (opposite d operand') := by
  have failed : EvalAlike c (fail d (.notAVerdict operand)) (fail d (.notAVerdict operand')) :=
    alike_fail d (.notAVerdict operand) (.notAVerdict operand')
      ⟨rfl, fun exact => by rw [h.eq_of_exact exact]⟩ (.some h) _
  cases h with
  | number x => exact failed
  | symbol pair =>
      simp only [opposite, ← c.one_to_one pair (c.verdict true), ← c.one_to_one pair (c.verdict false)]
      split
      · exact alike_verdictOf false
      split
      · exact alike_verdictOf true
      · exact failed
  | list items =>
      simp only [opposite]
      rw [Expr.allSameWithin_of_alike items]
      apply (alike_ofOption (rel_eq _)).bind
      rintro same _ rfl
      exact alike_verdictOf same

omit h in
theorem rel_name? {e e' : Expr} (h : e.Alike c e') : Option.Rel c.Pairs e.name? e'.name? := by
  cases h with
  | symbol pair => exact .some pair
  | _ => exact .none

theorem alike_defineFunction :
    EvalAlike c (defineFunction d operands) (defineFunction d operands') := by
  have count : EvalAlike c (fail d (.operandCount .defineFunction))
      (fail d (.operandCount .defineFunction)) := alike_fail_same d _ rfl _
  have shape : EvalAlike c (fail d .functionShape) (fail d .functionShape) :=
    alike_fail_same d _ rfl _
  rcases h with _ | ⟨name, _ | ⟨params, _ | ⟨body, _ | ⟨_, _⟩⟩⟩⟩
  · simpa only [defineFunction] using count
  · simpa only [defineFunction] using count
  · simpa only [defineFunction] using count
  · cases name with
    | number x => exact shape
    | list items => exact shape
    | symbol pair =>
        cases params with
        | number x => exact shape
        | symbol _ => exact shape
        | @list params params' each =>
            simp only [defineFunction]
            rcases rel_cases (mapM_of_forall₂ (fun _ _ param => rel_name? param) each) with
              ⟨unnamed, unnamed'⟩ | ⟨names, names', named, named', pairs⟩
            · rw [unnamed, unnamed']
              exact alike_fail_same d .parameterShape rfl _
            · rw [named, named']
              apply (alike_bindName pair ⟨pairs.imp fun _ _ => .inl, body⟩).bind
              intro _ _ _
              exact alike_unit
  · simpa only [defineFunction] using count

theorem alike_print : EvalAlike c (print d operands) (print d operands') := by
  apply alike_environment.bind
  intro env env' henv
  apply (alike_ofOption (mapM_of_forall₂ (fun _ _ item => Environment.render_alike henv item) h)).bind
  intro texts texts' each
  apply (alike_printLine fun exact => by rw [exact.texts_eq each]).bind
  intro _ _ _
  exact alike_unit

include hev

omit h in
theorem alike_valueOf {e e' : Expr} (h : e.Alike c e') (noValue noValue' : EvalError)
    (failed : (fail d noValue : Eval Expr).Alike c (Expr.Alike c) (fail d noValue')) :
    (ev.valueOf d e noValue).Alike c (Expr.Alike c) (ev'.valueOf d e' noValue') := by
  apply (hev e e' h).bind
  intro outcome outcome' alike
  cases alike with
  | value alike => exact alike_pure alike
  | unit => exact failed

theorem alike_values (noValue : EvalError) (plain : noValue.shown? = none) :
    (operands.mapM fun e => ev.valueOf d e noValue).Alike c (List.Forall₂ (Expr.Alike c))
      (operands'.mapM fun e => ev'.valueOf d e noValue) := by
  refine alike_mapM (fun e e' alike => ?_) h
  exact alike_valueOf d hev alike _ _ (alike_fail_same d noValue plain _)

omit h in
theorem alike_operandNumber (op : Arithmetic) {e e' : Expr} (h : e.Alike c e') :
    (operandNumber d ev op e).Alike c Eq (operandNumber d ev' op e') := by
  have noValue : (fail d (.unitOperand e) : Eval Expr).Alike c (Expr.Alike c)
      (fail d (.unitOperand e')) :=
    alike_fail d (.unitOperand e) (.unitOperand e') ⟨rfl, fun exact => by rw [h.eq_of_exact exact]⟩
      (.some h) _
  apply (alike_valueOf d hev h _ _ noValue).bind
  intro v v' alike
  have failed : (fail d (.notANumber op v) : Eval Float).Alike c Eq (fail d (.notANumber op v')) :=
    alike_fail d (.notANumber op v) (.notANumber op v')
      ⟨rfl, fun exact => by rw [alike.eq_of_exact exact]⟩ (.some alike) _
  cases alike with
  | number x => exact alike_pure rfl
  | symbol pair => exact failed
  | list items => exact failed

theorem alike_arithmetic (op : Arithmetic) :
    EvalAlike c (arithmetic d ev op operands) (arithmetic d ev' op operands') := by
  cases h with
  | nil => exact alike_fail_same d (.operandCount (.arithmetic op)) rfl _
  | cons first rest =>
      apply (alike_operandNumber d hev op first).bind
      rintro x _ rfl
      apply (alike_mapM (fun _ _ operand => alike_operandNumber d hev op operand) rest).bind
      intro xs xs' each
      obtain rfl : xs = xs' := by rwa [List.forall₂_eq_eq_eq] at each
      exact alike_pure (.value (.number _))

theorem alike_comparison (op : Operator) (flip : Bool) :
    EvalAlike c (comparison d ev op flip operands) (comparison d ev' op flip operands') := by
  have values := alike_values d hev h .unitCompared rfl
  cases h with
  | nil => exact alike_fail_same d (.operandCount op) rfl _
  | cons first rest =>
      apply values.bind
      intro vs vs' each
      rw [Expr.allSameWithin_of_alike each]
      apply (alike_ofOption (rel_eq _)).bind
      rintro same _ rfl
      exact alike_verdictOf _

theorem alike_negation : EvalAlike c (negation d ev operands) (negation d ev' operands') := by
  have count : EvalAlike c (fail d (.operandCount .negation)) (fail d (.operandCount .negation)) :=
    alike_fail_same d _ rfl _
  rcases h with _ | ⟨operand, _ | ⟨_, _⟩⟩
  · simpa only [negation] using count
  · apply (hev _ _ operand).bind
    intro _ _ _
    exact alike_opposite d operand
  · simpa only [negation] using count

theorem alike_defineVariable :
    EvalAlike c (defineVariable d ev operands) (defineVariable d ev' operands') := by
  have count : EvalAlike c (fail d (.operandCount .defineVariable))
      (fail d (.operandCount .defineVariable)) := alike_fail_same d _ rfl _
  have shape : EvalAlike c (fail d .variableShape) (fail d .variableShape) :=
    alike_fail_same d _ rfl _
  rcases h with _ | ⟨name, _ | ⟨definition, _ | ⟨_, _⟩⟩⟩
  · simpa only [defineVariable] using count
  · simpa only [defineVariable] using count
  · cases name with
    | number x => exact shape
    | list items => exact shape
    | symbol pair =>
        apply (alike_valueOf d hev definition _ _ (alike_fail_same d .unitBound rfl _)).bind
        intro v v' alike
        apply (alike_bindName pair ⟨.nil, alike⟩).bind
        intro _ _ _
        exact alike_unit
  · simpa only [defineVariable] using count

theorem alike_conditional :
    EvalAlike c (conditional d ev operands) (conditional d ev' operands') := by
  have count : EvalAlike c (fail d (.operandCount .conditional))
      (fail d (.operandCount .conditional)) := alike_fail_same d _ rfl _
  rcases h with _ | ⟨condition, _ | ⟨first, _ | ⟨second, _ | ⟨_, _⟩⟩⟩⟩
  · simpa only [conditional] using count
  · simpa only [conditional] using count
  · simpa only [conditional] using count
  · apply (alike_valueOf d hev condition _ _ (alike_fail_same d .unitCondition rfl _)).bind
    intro v v' alike
    have chosen := alike.isEmptyList_eq
    cases h : v'.isEmptyList <;> simp only [chosen, h, if_true, if_false, Bool.false_eq_true]
    · apply (hev _ _ first).bind
      intro _ _ _
      exact hev _ _ first
    · apply (hev _ _ second).bind
      intro _ _ _
      exact hev _ _ first
  · simpa only [conditional] using count

omit hev h in
theorem values_alike {outcomes outcomes' : List Outcome}
    (h : List.Forall₂ (Outcome.Alike c) outcomes outcomes') :
    List.Forall₂ (Expr.Alike c) (values outcomes) (values outcomes') := by
  induction h with
  | nil => exact .nil
  | cons first rest ih =>
      cases first with
      | value alike => exact .cons alike ih
      | unit => exact ih

theorem alike_items : EvalAlike c (items ev operands) (items ev' operands') := by
  apply (alike_mapM hev h).bind
  intro outcomes outcomes' each
  exact alike_pure (.value (.list (values_alike each)))

theorem alike_call {s t : String} (pair : c.Pairs s t) {b b' : Binding} (hb : b.Alike c b') :
    EvalAlike c (call d ev s b operands) (call d ev' t b' operands') := by
  unfold call
  rw [h.length_eq, hb.params.length_eq]
  split
  · apply (alike_values d hev h .unitArgument rfl).bind
    intro values values' each
    rw [each.length_eq]
    apply (alike_noteCall pair _).bind
    intro _ _ _
    exact (hev _ _ hb.body).within (Frame.ofValues_alike hb.params each)
  · exact alike_fail d (.argumentCount s _ _) (.argumentCount t _ _)
      ⟨rfl, fun exact => by rw [exact pair]⟩ .none _

theorem alike_name {s t : String} (pair : c.Pairs s t) :
    EvalAlike c (name d ev s operands) (name d ev' t operands') := by
  apply alike_environment.bind
  intro env env' henv
  rcases rel_cases (Environment.lookup_alike henv pair) with
    ⟨unbound, unbound'⟩ | ⟨b, b', bound, bound', alike⟩
  · rw [unbound, unbound']
    exact alike_pure (.value (.symbol pair))
  · simp only [bound, bound', alike.isFunction_eq]
    split
    · exact alike_call d hev h pair alike
    · exact hev _ _ alike.body

end Rule

/-! ### Evaluation -/

section

variable {c : Correspondence} (d : Nat) {ev ev' : Evaluator}
  (hev : ∀ e e' : Expr, e.Alike c e' → EvalAlike c (ev e) (ev' e'))

include hev

theorem Operator.run_alike (op : Operator) {operands operands' : List Expr}
    (h : List.Forall₂ (Expr.Alike c) operands operands') :
    EvalAlike c (op.run d ev operands) (op.run d ev' operands') := by
  cases op with
  | arithmetic op => exact Rule.alike_arithmetic d hev h op
  | equal => exact Rule.alike_comparison d hev h .equal false
  | notEqual => exact Rule.alike_comparison d hev h .notEqual true
  | negation => exact Rule.alike_negation d hev h
  | conjunction => exact Rule.alike_conjunction d h
  | disjunction => exact Rule.alike_disjunction d h
  | defineFunction => exact Rule.alike_defineFunction d h
  | defineVariable => exact Rule.alike_defineVariable d hev h
  | print => exact Rule.alike_print d h
  | conditional => exact Rule.alike_conditional d hev h

theorem Form.run_alike {env env' : Environment} (henv : env.Alike c env') {e e' : Expr}
    (h : e.Alike c e') : EvalAlike c ((env.form e).run d ev) ((env'.form e').run d ev') := by
  cases h with
  | number x => exact Eval.alike_pure (.value (.number x))
  | symbol pair => exact Rule.alike_name d hev .nil pair
  | list items =>
      cases items with
      | nil => exact Eval.alike_pure (.value (.list .nil))
      | cons head rest =>
          have listed := Rule.alike_items hev (.cons head rest)
          cases head with
          | number x => exact listed
          | list inner => exact listed
          | symbol pair =>
              simp only [Environment.form, c.reserved pair, Environment.contains_eq_of_alike henv pair]
              split
              · exact Operator.run_alike d hev _ rest
              split
              · exact Rule.alike_name d hev rest pair
              · exact listed

end

/-- Expressions that are alike are evaluated alike. -/
theorem eval_alike {c : Correspondence} : ∀ (d : Nat) {e e' : Expr}, e.Alike c e' →
    EvalAlike c (eval d e) (eval d e')
  | 0, _, _, _ => Eval.alike_exhaust _
  | d + 1, _, _, h => by
      apply Eval.alike_environment.bind
      intro env env' henv
      exact Form.run_alike d (fun _ _ => eval_alike d) henv h

end DynLisp
