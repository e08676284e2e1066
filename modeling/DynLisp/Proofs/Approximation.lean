import DynLisp.Proofs.Effects

/-! # Evaluations compared

The same expression is evaluated twice: the second time with at least as many nested calls allowed,
and from a machine on which other lines were printed and other functions called before.

* `Machine.prepend` puts lines and calls before those of a machine.
* `Eval.Approximates fewer x y` compares the two computations: they end alike, but for what was there
  before; or `x` uses its allowance up, which is possible only if it has fewer calls, and then `y`
  prints whatever `x` has printed by that time.
* Rendering, comparing and writing, which print nothing, give the same with more nested calls if they
  give anything.
* `eval_approximates` is the induction on the smaller allowance.  Each rule approximates itself as
  soon as the evaluations of its parts do, because no rule looks at what is printed and none catches
  an exhaustion.
* `Machine.EndsWithin` says that so many nested evaluations are enough for an evaluation, and that it
  does nothing before it is found out that fewer of them are not.

That a computation which goes on keeps what is printed is `effects_prints`. -/

namespace DynLisp

/-! ### What is printed -/

/-- The lines printed until one machine are the first lines printed until the other. -/
def Machine.Prints (m m' : Machine) : Prop :=
  m.printed.toList <+: m'.printed.toList

theorem effects_prints : Effects Machine.Prints where
  refl m := List.prefix_rfl
  trans := List.IsPrefix.trans
  print line m := by
    show m.printed.toList <+: (m.printed.push line).toList
    rw [Array.toList_push]
    exact List.prefix_append _ _
  note _ _ m := List.prefix_rfl
  bind name b m := by
    unfold Eval.after Eval.bindName
    cases m.env.bind name b <;> exact List.prefix_rfl
  within _ h := h

/-- The machine with other lines and calls before its own. -/
def Machine.prepend (lines : Array String) (calls : Array Call) (m : Machine) : Machine :=
  { m with printed := lines ++ m.printed, calls := calls ++ m.calls }

@[simp] theorem Machine.env_prepend (lines : Array String) (calls : Array Call) (m : Machine) :
    (m.prepend lines calls).env = m.env := rfl

@[simp] theorem Machine.prepend_empty (m : Machine) : m.prepend #[] #[] = m := by
  simp [prepend]

/-! ### Parts that print nothing -/

section
variable {α β : Type}

theorem mapM_of_some {f g : α → Option β} (h : ∀ a b, f a = some b → g a = some b) :
    ∀ {as : List α} {bs : List β}, as.mapM f = some bs → as.mapM g = some bs
  | [], _, hb => hb
  | a :: as, _, hb => by
      simp only [List.mapM_cons, bind, Option.bind_eq_some_iff] at hb ⊢
      obtain ⟨b, ha, bs, has, hb⟩ := hb
      exact ⟨b, h a b ha, bs, mapM_of_some h has, hb⟩

theorem allM_of_some {p q : α → Option Bool} (h : ∀ a v, p a = some v → q a = some v) :
    ∀ {as : List α} {v : Bool}, as.allM p = some v → as.allM q = some v
  | [], _, hv => hv
  | a :: as, v, hv => by
      simp only [List.allM, bind, Option.bind_eq_some_iff] at hv ⊢
      obtain ⟨b, ha, hv⟩ := hv
      refine ⟨b, h a b ha, ?_⟩
      cases b with
      | true => exact allM_of_some h hv
      | false => exact hv

end

theorem Environment.render_of_le (env : Environment) {d d' : Nat} (h : d ≤ d') {e : Expr}
    {text : String} (hr : env.render d e = some text) : env.render d' e = some text := by
  induction d generalizing d' e text with
  | zero => simp [render] at hr
  | succ d ih =>
      obtain ⟨d', rfl⟩ := Nat.exists_eq_add_of_le' (Nat.le_trans (Nat.le_add_left 1 d) h)
      have le : d ≤ d' := by omega
      cases e with
      | number x => exact hr
      | symbol name =>
          rw [render_symbol] at hr ⊢
          cases hb : env.lookup name with
          | none => simpa [hb] using hr
          | some b =>
              cases hf : b.isFunction with
              | true => simpa [hb, hf] using hr
              | false =>
                  simp only [hb, hf] at hr ⊢
                  exact ih le hr
      | list items =>
          rw [render_list, Option.map_eq_some_iff] at hr ⊢
          obtain ⟨texts, each, rfl⟩ := hr
          exact ⟨texts, mapM_of_some (fun e text => ih le) each, rfl⟩

namespace Expr

theorem sourceWithin_of_le {d d' : Nat} (h : d ≤ d') {e : Expr} {text : String}
    (hs : e.sourceWithin d = some text) : e.sourceWithin d' = some text := by
  unfold sourceWithin at hs ⊢
  split at hs
  · rw [if_pos (by omega), hs]
  · cases hs

theorem sameWithin_of_le {d d' : Nat} (h : d ≤ d') {a b : Expr} {v : Bool}
    (hs : sameWithin d a b = some v) : sameWithin d' a b = some v := by
  induction d generalizing d' a b v with
  | zero => simp [sameWithin] at hs
  | succ d ih =>
      obtain ⟨d', rfl⟩ := Nat.exists_eq_add_of_le' (Nat.le_trans (Nat.le_add_left 1 d) h)
      have le : d ≤ d' := by omega
      cases a with
      | list xs =>
          cases b with
          | list ys =>
              rw [sameWithin] at hs ⊢
              split at hs
              · rename_i hlen
                rw [if_pos hlen]
                exact allM_of_some (fun pair v => ih le) hs
              · rename_i hlen
                rw [if_neg hlen, hs]
          | _ => exact hs
      | _ => exact hs

theorem allSameWithin_of_le {d d' : Nat} (h : d ≤ d') {es : List Expr} {v : Bool}
    (hs : allSameWithin d es = some v) : allSameWithin d' es = some v := by
  cases es with
  | nil => exact hs
  | cons first rest => exact allM_of_some (fun e v => sameWithin_of_le h) hs

end Expr

/-! ### Computations -/

namespace Eval

variable {α β : Type} {fewer : Prop}

/-- A result with other lines and calls before those of its machine. -/
def prepend (lines : Array String) (calls : Array Call) :
    EStateM.Result Failure Machine α → EStateM.Result Failure Machine α
  | .ok a m => .ok a (m.prepend lines calls)
  | .error e m => .error e (m.prepend lines calls)

@[simp] theorem prepend_empty (r : EStateM.Result Failure Machine α) : prepend #[] #[] r = r := by
  cases r <;> simp [prepend]

/-- Both end alike, but for the lines and calls before; or `x` has fewer nested calls and has used them
up, and `y` prints what `x` has printed. -/
def Agrees (fewer : Prop) (lines : Array String) (calls : Array Call) (x y : Eval α)
    (m : Machine) : Prop :=
  y (m.prepend lines calls) = prepend lines calls (x m) ∨
    fewer ∧ ∃ m', x m = .error .exhausted m' ∧
      (m'.prepend lines calls).Prints (y.after (m.prepend lines calls))

/-- `x` and `y` agree wherever they start and whatever is before, and `y` keeps what is printed. -/
structure Approximates (fewer : Prop) (x y : Eval α) : Prop where
  agrees : ∀ lines calls m, x.Agrees fewer lines calls y m
  keeps : y.Keeps Machine.Prints

/-- A computation that agrees with itself does not depend on what is before. -/
theorem Approximates.prepend_start {x : Eval α} (h : x.Approximates False x) (m : Machine) :
    x m = prepend m.printed m.calls (x (.start m.env)) := by
  have compared := h.agrees m.printed m.calls (.start m.env)
  have start : (Machine.start m.env).prepend m.printed m.calls = m := by
    simp [Machine.prepend, Machine.start]
  rw [Agrees, start] at compared
  exact compared.resolve_right fun h => h.1

theorem approximates_pure (a : α) : (pure a : Eval α).Approximates fewer (pure a) :=
  ⟨fun _ _ _ => .inl rfl, effects_prints.keeps_pure a⟩

theorem approximates_environment : environment.Approximates fewer environment :=
  ⟨fun _ _ _ => .inl rfl, effects_prints.keeps_environment⟩

theorem approximates_printLine (line : String) :
    (printLine line).Approximates fewer (printLine line) where
  keeps := effects_prints.print line
  agrees lines calls m := by
    left
    simp [printLine, prepend, Machine.prepend]

theorem approximates_noteCall (function : String) (arguments : Nat) :
    (noteCall function arguments).Approximates fewer (noteCall function arguments) where
  keeps := effects_prints.note function arguments
  agrees lines calls m := by
    left
    simp [noteCall, prepend, Machine.prepend]

theorem approximates_bindName (name : String) (b : Binding) :
    (bindName name b).Approximates fewer (bindName name b) where
  keeps := effects_prints.bind name b
  agrees lines calls m := by
    left
    unfold bindName
    rw [Machine.env_prepend]
    cases m.env.bind name b <;> rfl

theorem exhaust_approximates {y : Eval α} (h : fewer) (hy : y.Keeps Machine.Prints) :
    (exhaust : Eval α).Approximates fewer y :=
  ⟨fun _ _ m => .inr ⟨h, m, rfl, hy _⟩, hy⟩

theorem approximates_exhaust : (exhaust : Eval α).Approximates fewer exhaust :=
  ⟨fun _ _ _ => .inl rfl, effects_prints.keeps_exhaust⟩

theorem Approximates.bind {x y : Eval α} {f g : α → Eval β} (hx : x.Approximates fewer y)
    (hf : ∀ a, (f a).Approximates fewer (g a)) : (x >>= f).Approximates fewer (y >>= g) where
  keeps := effects_prints.keeps_bind hx.keeps fun a => (hf a).keeps
  agrees lines calls m := by
    rcases hx.agrees lines calls m with same | ⟨less, m', ended, printed⟩
    · cases h : x m with
      | ok a m' =>
          rw [h] at same
          have first : (x >>= f) m = f a m' := bind_of_ok h
          have second : (y >>= g) (m.prepend lines calls) = g a (m'.prepend lines calls) :=
            bind_of_ok same
          unfold Agrees after
          rw [first, second]
          exact (hf a).agrees lines calls m'
      | error e m' =>
          rw [h] at same
          left
          rw [bind_of_error h, bind_of_error same]
          rfl
    · right
      have further := effects_prints.rel_after_bind y (fun a => (hf a).keeps) (m.prepend lines calls)
      exact ⟨less, m', bind_of_error ended, printed.trans further⟩

theorem approximates_mapM {f g : α → Eval β} (h : ∀ a, (f a).Approximates fewer (g a)) :
    ∀ as : List α, (as.mapM f).Approximates fewer (as.mapM g)
  | [] => approximates_pure []
  | a :: as => by
      rw [List.mapM_cons, List.mapM_cons]
      apply (h a).bind
      intro b
      exact (approximates_mapM h as).bind fun bs => approximates_pure (b :: bs)

/-- As many nested calls for the second computation, or more if the first may have fewer. -/
def Allows (fewer : Prop) (d d' : Nat) : Prop :=
  d' = d ∨ fewer ∧ d ≤ d'

theorem approximates_ofOption {d d' : Nat} (h : Allows fewer d d') (o : Nat → Option α)
    (more : ∀ {d d'}, d ≤ d' → ∀ a, o d = some a → o d' = some a) :
    (ofOption (o d)).Approximates fewer (ofOption (o d')) := by
  have same (o : Option α) : (ofOption o).Approximates fewer (ofOption o) := by
    cases o with
    | none => exact approximates_exhaust
    | some a => exact approximates_pure a
  rcases h with rfl | ⟨less, h⟩
  · exact same _
  · cases ho : o d with
    | none => exact exhaust_approximates less (effects_prints.keeps_ofOption _)
    | some a =>
        rw [more h a ho]
        exact same (some a)

theorem approximates_fail {d d' : Nat} (h : Allows fewer d d') (e : EvalError) :
    (fail d e : Eval α).Approximates fewer (fail d' e) := by
  have thrown : (throw (.error e) : Eval α).Approximates fewer (throw (.error e)) :=
    ⟨fun _ _ _ => .inl rfl, fun m => effects_prints.refl m⟩
  cases hs : e.shown? with
  | none => simpa only [fail, hs] using thrown
  | some shown =>
      -- the message is written first, which needs nested calls of its own
      have asWritten (d : Nat) :
          (fail d e : Eval α) = ofOption (shown.sourceWithin d) >>= fun _ => throw (.error e) := by
        simp only [fail, hs]
        cases shown.sourceWithin d <;> rfl
      rw [asWritten, asWritten]
      exact (approximates_ofOption h (shown.sourceWithin ·) fun le text => Expr.sourceWithin_of_le le).bind
        fun _ => thrown

theorem Approximates.within {x y : Eval α} (h : x.Approximates fewer y) (f : Frame) :
    (Eval.within f x).Approximates fewer (Eval.within f y) where
  keeps := effects_prints.keeps_within f h.keeps
  agrees lines calls m := by
    have inside := h.agrees lines calls { m with env := m.env.push f }
    rcases inside with same | ⟨less, m', ended, printed⟩
    · left
      have pushed : y { m.prepend lines calls with env := (m.prepend lines calls).env.push f } =
        prepend lines calls (x { m with env := m.env.push f }) := same
      simp only [Eval.within, pushed]
      cases x { m with env := m.env.push f } <;> rfl
    · right
      refine ⟨less, { m' with env := m'.env.dropInnermost }, by simp only [Eval.within, ended], ?_⟩
      rw [after_within]
      exact printed

end Eval

/-! ### Rules

Each rule approximates itself with more calls and evaluations of the parts that approximate. -/

section
open Eval

variable {fewer : Prop} {d d' : Nat} (h : Allows fewer d d') {ev ev' : Evaluator}
  (hev : ∀ e, (ev e).Approximates fewer (ev' e))

include h

theorem Rule.approximates_conjunction (operands : List Expr) :
    (conjunction d operands).Approximates fewer (conjunction d' operands) := by
  cases operands with
  | nil => exact approximates_fail h (.operandCount .conjunction)
  | cons first rest =>
      apply (approximates_ofOption h (fun d => (first :: rest).allM (first.sameWithin d)) ?_).bind
      · intro same
        exact approximates_pure _
      · exact fun le v => allM_of_some fun e v => Expr.sameWithin_of_le le

theorem Rule.approximates_disjunction (operands : List Expr) :
    (disjunction d operands).Approximates fewer (disjunction d' operands) := by
  cases operands with
  | nil => exact approximates_fail h (.operandCount .disjunction)
  | cons first rest => exact approximates_pure _

theorem Rule.approximates_opposite (operand : Expr) :
    (opposite d operand).Approximates fewer (opposite d' operand) := by
  cases operand with
  | number x => exact approximates_fail h (.notAVerdict (.number x))
  | symbol name =>
      simp only [opposite]
      split
      · exact approximates_pure _
      split
      · exact approximates_pure _
      · exact approximates_fail h _
  | list items =>
      apply (approximates_ofOption h (Expr.allSameWithin · items) fun le v =>
        Expr.allSameWithin_of_le le).bind
      intro same
      exact approximates_pure _

theorem Rule.approximates_defineFunction (operands : List Expr) :
    (defineFunction d operands).Approximates fewer (defineFunction d' operands) := by
  unfold defineFunction
  split
  · split
    · apply (approximates_bindName _ _).bind
      intro _
      exact approximates_pure _
    · exact approximates_fail h _
  · exact approximates_fail h _
  · exact approximates_fail h _

theorem Rule.approximates_print (operands : List Expr) :
    (print d operands).Approximates fewer (print d' operands) := by
  apply approximates_environment.bind
  intro env
  apply (approximates_ofOption h (fun d => operands.mapM (env.render d)) ?_).bind
  · intro texts
    exact (approximates_printLine _).bind fun _ => approximates_pure _
  · exact fun le texts => mapM_of_some fun e text => env.render_of_le le

include hev

theorem Evaluator.approximates_valueOf (e : Expr) (noValue : EvalError) :
    (ev.valueOf d e noValue).Approximates fewer (ev'.valueOf d' e noValue) := by
  apply (hev e).bind
  intro outcome
  cases outcome with
  | value v => exact approximates_pure v
  | unit => exact approximates_fail h noValue

theorem Rule.approximates_operandNumber (op : Arithmetic) (operand : Expr) :
    (operandNumber d ev op operand).Approximates fewer (operandNumber d' ev' op operand) := by
  apply (Evaluator.approximates_valueOf h hev operand _).bind
  intro value
  cases value with
  | number x => exact approximates_pure x
  | symbol name => exact approximates_fail h _
  | list items => exact approximates_fail h _

theorem Rule.approximates_arithmetic (op : Arithmetic) (operands : List Expr) :
    (arithmetic d ev op operands).Approximates fewer (arithmetic d' ev' op operands) := by
  cases operands with
  | nil => exact approximates_fail h (.operandCount (.arithmetic op))
  | cons first rest =>
      apply (approximates_operandNumber h hev op first).bind
      intro x
      apply (approximates_mapM (approximates_operandNumber h hev op) rest).bind
      intro xs
      exact approximates_pure _

theorem Rule.approximates_comparison (op : Operator) (flip : Bool) (operands : List Expr) :
    (comparison d ev op flip operands).Approximates fewer (comparison d' ev' op flip operands) := by
  cases operands with
  | nil => exact approximates_fail h (.operandCount op)
  | cons first rest =>
      apply (approximates_mapM (fun e => Evaluator.approximates_valueOf h hev e _) _).bind
      intro values
      apply (approximates_ofOption h (Expr.allSameWithin · values) fun le v =>
        Expr.allSameWithin_of_le le).bind
      intro same
      exact approximates_pure _

theorem Rule.approximates_negation (operands : List Expr) :
    (negation d ev operands).Approximates fewer (negation d' ev' operands) := by
  unfold negation
  split
  · apply (hev _).bind
    intro _
    exact approximates_opposite h _
  · exact approximates_fail h _

theorem Rule.approximates_defineVariable (operands : List Expr) :
    (defineVariable d ev operands).Approximates fewer (defineVariable d' ev' operands) := by
  unfold defineVariable
  split
  · apply (Evaluator.approximates_valueOf h hev _ _).bind
    intro value
    exact (approximates_bindName _ _).bind fun _ => approximates_pure _
  · exact approximates_fail h _
  · exact approximates_fail h _

theorem Rule.approximates_conditional (operands : List Expr) :
    (conditional d ev operands).Approximates fewer (conditional d' ev' operands) := by
  unfold conditional
  split
  · apply (Evaluator.approximates_valueOf h hev _ _).bind
    intro value
    apply (hev _).bind
    intro _
    exact hev _
  · exact approximates_fail h _

theorem Rule.approximates_call (name : String) (b : Binding) (args : List Expr) :
    (call d ev name b args).Approximates fewer (call d' ev' name b args) := by
  unfold call
  split
  · apply (approximates_mapM (fun e => Evaluator.approximates_valueOf h hev e _) _).bind
    intro values
    apply (approximates_noteCall _ _).bind
    intro _
    exact (hev b.body).within _
  · exact approximates_fail h _

theorem Rule.approximates_name (x : String) (args : List Expr) :
    (name d ev x args).Approximates fewer (name d' ev' x args) := by
  apply approximates_environment.bind
  intro env
  cases env.lookup x with
  | none => exact approximates_pure _
  | some b =>
      show (if b.isFunction then call d ev x b args else ev b.body).Approximates fewer
        (if b.isFunction then call d' ev' x b args else ev' b.body)
      split
      · exact approximates_call h hev x b args
      · exact hev b.body

theorem Operator.approximates_run (op : Operator) (operands : List Expr) :
    (op.run d ev operands).Approximates fewer (op.run d' ev' operands) := by
  cases op with
  | arithmetic op => exact Rule.approximates_arithmetic h hev op operands
  | equal => exact Rule.approximates_comparison h hev .equal false operands
  | notEqual => exact Rule.approximates_comparison h hev .notEqual true operands
  | negation => exact Rule.approximates_negation h hev operands
  | conjunction => exact Rule.approximates_conjunction h operands
  | disjunction => exact Rule.approximates_disjunction h operands
  | defineFunction => exact Rule.approximates_defineFunction h operands
  | defineVariable => exact Rule.approximates_defineVariable h hev operands
  | print => exact Rule.approximates_print h operands
  | conditional => exact Rule.approximates_conditional h hev operands

omit h in
theorem Rule.approximates_items (es : List Expr) : (items ev es).Approximates fewer (items ev' es) := by
  apply (approximates_mapM hev es).bind
  intro outcomes
  exact approximates_pure _

theorem Form.approximates_run (form : Form) : (form.run d ev).Approximates fewer (form.run d' ev') := by
  cases form with
  | constant e => exact approximates_pure _
  | operation op operands => exact Operator.approximates_run h hev op operands
  | name x args => exact Rule.approximates_name h hev x args
  | items es => exact Rule.approximates_items hev es

end

/-- An evaluation is approximated by the same evaluation with fewer nested ones. -/
theorem eval_approximates {fewer : Prop} : ∀ {d d' : Nat}, Eval.Allows fewer d d' →
    ∀ e : Expr, (eval d e).Approximates fewer (eval d' e)
  | 0, 0, _, _ => Eval.approximates_exhaust
  | 0, d' + 1, h, e => by
      have less : fewer := h.elim (fun same => by cases same) fun more => more.1
      exact Eval.exhaust_approximates less (effects_prints.eval_keeps (d' + 1) e)
  | d + 1, 0, h, _ => by
      rcases h with h | ⟨-, h⟩
      · cases h
      · exact absurd h (Nat.not_succ_le_zero d)
  | d + 1, d' + 1, h, e => by
      have inner : Eval.Allows fewer d d' :=
        h.imp Nat.succ.inj fun more => ⟨more.1, Nat.le_of_succ_le_succ more.2⟩
      apply Eval.approximates_environment.bind
      intro env
      exact Form.approximates_run inner (eval_approximates inner) (env.form e)

/-- More nested evaluations change nothing, or the fewer were not enough. -/
theorem eval_of_le {d d' : Nat} (h : d ≤ d') (e : Expr) (m : Machine) :
    eval d' e m = eval d e m ∨
      ∃ m', eval d e m = .error .exhausted m' ∧ m'.Prints ((eval d' e).after m) := by
  have compared := (eval_approximates (.inr ⟨trivial, h⟩) e).agrees #[] #[] m
  simpa only [Eval.Agrees, Machine.prepend_empty, Eval.prepend_empty, true_and] using compared

/-- A result stays as it is with more nested evaluations. -/
theorem eval_of_ok {d d' : Nat} (le : d ≤ d') {e : Expr} {m m' : Machine} {outcome : Outcome}
    (h : eval d e m = .ok outcome m') : eval d' e m = .ok outcome m' := by
  rcases eval_of_le le e m with same | ⟨m'', exhausted, -⟩
  · rw [same, h]
  · rw [h] at exhausted
    cases exhausted

/-- What was printed and called before changes nothing but itself. -/
theorem eval_approximates_self (d : Nat) (e : Expr) : (eval d e).Approximates False (eval d e) :=
  eval_approximates (.inl rfl) e

/-! ### Allowances that are enough -/

/-- The evaluation ends so by at most `n` nested evaluations.  Where fewer are allowed it may be
exhausted instead, and then it has done nothing. -/
def Machine.EndsWithin (m : Machine) (n : Nat) (e : Expr) (outcome : Outcome) (m' : Machine) : Prop :=
  ∀ d, eval d e m = .ok outcome m' ∨ d < n ∧ eval d e m = .error .exhausted m

namespace Machine.EndsWithin

variable {m m' : Machine} {n : Nat} {e : Expr} {outcome : Outcome}

theorem of_succ (h : ∀ d, eval (d + 1) e m = .ok outcome m' ∨
    d < n ∧ eval (d + 1) e m = .error .exhausted m) : m.EndsWithin (n + 1) e outcome m'
  | 0 => .inr ⟨Nat.succ_pos n, rfl⟩
  | d + 1 => (h d).imp_right (And.imp_left Nat.succ_lt_succ)

theorem eval (h : m.EndsWithin n e outcome m') {d : Nat} (enough : n ≤ d) :
    eval d e m = .ok outcome m' :=
  (h d).resolve_right fun few => Nat.not_lt.2 enough few.1

end Machine.EndsWithin
end DynLisp
