import DynLisp.Proofs.Effects
import DynLisp.Proofs.Names
import DynLisp.Session

/-! # Evaluation invents no names

Whatever an evaluation binds or gives is made of names that were in the environment or in the
expression, and of the two verdicts.

* `Eval.Preserves I Q x` says that `x` keeps `I` of the machine, however it ends, and that its result
  has `Q`.
* `Machine.UsesOnly V` is what is kept: the names in the environment are from `V`, and all that is
  printed are lines.  It is what makes the next variable or function that is looked up, whose body
  is evaluated as if it stood in the program, one with names from `V` again.
* `eval_usesOnly` is the induction over evaluations, and `runAll_usesOnly` the one over sessions,
  where `V` grows with each program.

From this it follows that results can be read back and that each print form adds one line to the
output (`session_vocabulary`). -/

namespace DynLisp

/-! ### Computations that keep an invariant -/

namespace Eval

variable {α β : Type} {I : Machine → Prop}

/-- However the computation ends, it keeps `I`, and a result has `Q`. -/
def Preserves (I : Machine → Prop) (Q : α → Prop) (x : Eval α) : Prop :=
  ∀ m, I m → match x m with
    | .ok a m' => I m' ∧ Q a
    | .error _ m' => I m'

theorem preserves_pure {Q : α → Prop} {a : α} (h : Q a) : (pure a : Eval α).Preserves I Q :=
  fun _ hm => ⟨hm, h⟩

theorem preserves_ofOption {Q : α → Prop} {o : Option α} (h : ∀ a, o = some a → Q a) :
    (ofOption o).Preserves I Q := by
  cases o with
  | none => exact fun _ hm => hm
  | some a => exact preserves_pure (h a rfl)

theorem preserves_fail (d : Nat) (e : EvalError) (Q : α → Prop) :
    (fail d e : Eval α).Preserves I Q := by
  intro m hm
  unfold fail
  cases e.shown? with
  | none => exact hm
  | some shown =>
      simp only
      cases shown.sourceWithin d <;> exact hm

theorem Preserves.bind {x : Eval α} {f : α → Eval β} {Q : α → Prop} {P : β → Prop}
    (hx : x.Preserves I Q) (hf : ∀ a, Q a → (f a).Preserves I P) : (x >>= f).Preserves I P := by
  intro m hm
  have first := hx m hm
  cases h : x m with
  | ok a m' =>
      rw [h] at first
      rw [bind_of_ok h]
      exact hf a first.2 m' first.1
  | error e m' =>
      rw [h] at first
      rw [bind_of_error h]
      exact first

theorem Preserves.mono {x : Eval α} {Q Q' : α → Prop} (hx : x.Preserves I Q) (h : ∀ a, Q a → Q' a) :
    x.Preserves I Q' := by
  intro m hm
  have kept := hx m hm
  cases ended : x m with
  | ok a m' =>
      rw [ended] at kept
      exact ⟨kept.1, h a kept.2⟩
  | error e m' =>
      rw [ended] at kept
      exact kept

theorem Preserves.after {x : Eval α} {Q : α → Prop} (hx : x.Preserves I Q) {m : Machine} (hm : I m) :
    I (x.after m) := by
  have kept := hx m hm
  unfold Eval.after
  cases ended : x m with
  | ok a m' =>
      rw [ended] at kept
      exact kept.1
  | error e m' =>
      rw [ended] at kept
      exact kept

theorem preserves_mapM {f : α → Eval β} {P : β → Prop} : ∀ {as : List α},
    (∀ a ∈ as, (f a).Preserves I P) → (as.mapM f).Preserves I fun bs => ∀ b ∈ bs, P b
  | [], _ => preserves_pure fun b hb => by cases hb
  | a :: as, h => by
      rw [List.mapM_cons]
      apply (h a List.mem_cons_self).bind
      intro b hb
      apply (preserves_mapM fun a' ha => h a' (List.mem_cons_of_mem _ ha)).bind
      intro bs hbs
      exact preserves_pure (List.forall_mem_cons.2 ⟨hb, hbs⟩)

end Eval

/-! ### Names from a vocabulary -/

/-- The names in the environment are from `V`, and all that is printed are lines. -/
structure Machine.UsesOnly (V : List String) (m : Machine) : Prop where
  names : m.env.vocabulary ⊆ V
  lines : ∀ line ∈ m.printed.toList, IsLine line

/-- The names in a value. -/
def Outcome.names : Outcome → List String
  | value e => e.names
  | unit => []

namespace Eval

variable {α : Type} {V : List String}

theorem environment_usesOnly :
    environment.Preserves (Machine.UsesOnly V) fun env => env.vocabulary ⊆ V :=
  fun _ hm => ⟨hm, hm.names⟩

theorem noteCall_usesOnly (function : String) (arguments : Nat) :
    (noteCall function arguments).Preserves (Machine.UsesOnly V) fun _ => True :=
  fun _ hm => ⟨⟨hm.names, hm.lines⟩, trivial⟩

theorem printLine_usesOnly {line : String} (h : IsLine line) :
    (printLine line).Preserves (Machine.UsesOnly V) fun _ => True := by
  intro m hm
  refine ⟨⟨hm.names, ?_⟩, trivial⟩
  intro other ho
  rw [Array.toList_push, List.mem_append, List.mem_singleton] at ho
  rcases ho with old | rfl
  · exact hm.lines other old
  · exact h

theorem bindName_usesOnly {name : String} {b : Binding} (hn : name ∈ V) (hb : b.vocabulary ⊆ V) :
    (bindName name b).Preserves (Machine.UsesOnly V) fun _ => True := by
  intro m hm
  unfold bindName
  cases h : m.env.bind name b with
  | ok env => exact ⟨⟨Environment.vocabulary_of_bind h hm.names hn hb, hm.lines⟩, trivial⟩
  | error cause => exact hm

theorem within_usesOnly {f : Frame} {body : Eval α} {Q : α → Prop} (hf : f.vocabulary ⊆ V)
    (hb : body.Preserves (Machine.UsesOnly V) Q) :
    (Eval.within f body).Preserves (Machine.UsesOnly V) Q := by
  intro m hm
  have inside := hb { m with env := m.env.push f }
    ⟨Environment.vocabulary_push hm.names hf, hm.lines⟩
  unfold Eval.within
  cases h : body { m with env := m.env.push f } with
  | ok a m' =>
      rw [h] at inside
      exact ⟨⟨Environment.vocabulary_dropInnermost inside.1.names, inside.1.lines⟩, inside.2⟩
  | error e m' =>
      rw [h] at inside
      exact ⟨Environment.vocabulary_dropInnermost inside.names, inside.lines⟩

end Eval

/-- Evaluations that leave names from `V` only, in the machine and in what they give. -/
abbrev UsesOnly (V : List String) (x : Eval Outcome) : Prop :=
  x.Preserves (Machine.UsesOnly V) fun outcome => outcome.names ⊆ V

/-! ### Rules -/

namespace Rule

open Eval

variable {V : List String} (hV : IsVocabulary V) (d : Nat) {ev : Evaluator}
  (hev : ∀ e : Expr, e.names ⊆ V → UsesOnly V (ev e))

theorem usesOnly_unit : UsesOnly V (pure .unit) :=
  preserves_pure (List.nil_subset V)

theorem usesOnly_value {e : Expr} (h : e.names ⊆ V) : UsesOnly V (pure (.value e)) :=
  preserves_pure h

include hV in
theorem usesOnly_verdictOf (flag : Bool) : UsesOnly V (pure (verdictOf flag)) :=
  usesOnly_value (by simpa [Expr.verdict] using hV.verdicts flag)

theorem usesOnly_defineFunction {operands : List Expr} (h : ∀ e ∈ operands, e.names ⊆ V) :
    UsesOnly V (defineFunction d operands) := by
  unfold defineFunction
  split
  · rename_i name params body
    split
    · rename_i names named
      have hn : (Expr.symbol name).names ⊆ V := h _ (by simp)
      have hp : (Expr.list params).names ⊆ V := h _ (by simp)
      have hb : body.names ⊆ V := h _ (by simp)
      have parameters : names ⊆ V := by
        intro p hmem
        obtain ⟨e, he, hname⟩ := exists_mem_of_mapM named p hmem
        obtain rfl := Expr.name?_eq_some_iff.1 hname
        exact Expr.names_list_subset_iff.1 hp _ he (by simp)
      apply (bindName_usesOnly (hn (by simp)) (List.append_subset.2 ⟨parameters, hb⟩)).bind
      intro _ _
      exact usesOnly_unit
    · exact preserves_fail d _ _
  · exact preserves_fail d _ _
  · exact preserves_fail d _ _

include hV in
theorem usesOnly_print {operands : List Expr} (h : ∀ e ∈ operands, e.names ⊆ V) :
    UsesOnly V (print d operands) := by
  apply environment_usesOnly.bind
  intro env henv
  have texts : ∀ texts, operands.mapM (env.render d) = some texts → ∀ text ∈ texts, IsLine text := by
    intro texts each text ht
    obtain ⟨e, he, rendered⟩ := exists_mem_of_mapM each text ht
    exact hV.isLine_of_render henv (h e he) rendered
  apply (preserves_ofOption texts).bind
  intro texts ht
  have space : IsLine " " := by decide
  apply (printLine_usesOnly (isLine_intercalate space ht)).bind
  intro _ _
  exact usesOnly_unit

include hV in
theorem usesOnly_conjunction (operands : List Expr) : UsesOnly V (conjunction d operands) := by
  cases operands with
  | nil => exact preserves_fail d (.operandCount .conjunction) _
  | cons first rest =>
      apply (preserves_ofOption fun _ _ => trivial).bind
      intro same _
      exact usesOnly_verdictOf hV same

include hV in
theorem usesOnly_disjunction (operands : List Expr) : UsesOnly V (disjunction d operands) := by
  cases operands with
  | nil => exact preserves_fail d (.operandCount .disjunction) _
  | cons first rest => exact usesOnly_verdictOf hV _

include hV in
theorem usesOnly_opposite (operand : Expr) : UsesOnly V (opposite d operand) := by
  cases operand with
  | number x => exact preserves_fail d (.notAVerdict (.number x)) _
  | symbol name =>
      simp only [opposite]
      split
      · exact usesOnly_verdictOf hV false
      split
      · exact usesOnly_verdictOf hV true
      · exact preserves_fail d _ _
  | list items =>
      apply (preserves_ofOption fun _ _ => trivial).bind
      intro same _
      exact usesOnly_verdictOf hV same

include hev

theorem valueOf_usesOnly {e : Expr} (he : e.names ⊆ V) (noValue : EvalError) :
    (ev.valueOf d e noValue).Preserves (Machine.UsesOnly V) fun v => v.names ⊆ V := by
  apply (hev e he).bind
  intro outcome known
  cases outcome with
  | value v => exact preserves_pure known
  | unit => exact preserves_fail d noValue _

theorem values_usesOnly {es : List Expr} (h : ∀ e ∈ es, e.names ⊆ V) (noValue : EvalError) :
    (es.mapM fun e => ev.valueOf d e noValue).Preserves (Machine.UsesOnly V)
      fun vs => ∀ v ∈ vs, v.names ⊆ V :=
  preserves_mapM fun e he => valueOf_usesOnly d hev (h e he) noValue

theorem operandNumber_usesOnly (op : Arithmetic) {operand : Expr} (h : operand.names ⊆ V) :
    (operandNumber d ev op operand).Preserves (Machine.UsesOnly V) fun _ => True := by
  apply (valueOf_usesOnly d hev h _).bind
  intro value _
  cases value with
  | number x => exact preserves_pure trivial
  | symbol name => exact preserves_fail d _ _
  | list items => exact preserves_fail d _ _

theorem usesOnly_arithmetic (op : Arithmetic) {operands : List Expr}
    (h : ∀ e ∈ operands, e.names ⊆ V) : UsesOnly V (arithmetic d ev op operands) := by
  cases operands with
  | nil => exact preserves_fail d (.operandCount (.arithmetic op)) _
  | cons first rest =>
      rw [List.forall_mem_cons] at h
      apply (operandNumber_usesOnly d hev op h.1).bind
      intro x _
      apply (preserves_mapM fun e he => operandNumber_usesOnly d hev op (h.2 e he)).bind
      intro xs _
      exact usesOnly_value (by simp)

include hV in
theorem usesOnly_comparison (op : Operator) (flip : Bool) {operands : List Expr}
    (h : ∀ e ∈ operands, e.names ⊆ V) : UsesOnly V (comparison d ev op flip operands) := by
  cases operands with
  | nil => exact preserves_fail d (.operandCount op) _
  | cons first rest =>
      apply (values_usesOnly d hev h _).bind
      intro values _
      apply (preserves_ofOption fun _ _ => trivial).bind
      intro same _
      exact usesOnly_verdictOf hV _

include hV in
theorem usesOnly_negation {operands : List Expr} (h : ∀ e ∈ operands, e.names ⊆ V) :
    UsesOnly V (negation d ev operands) := by
  unfold negation
  split
  · rename_i operand
    apply (hev operand (h operand (by simp))).bind
    intro _ _
    exact usesOnly_opposite hV d operand
  · exact preserves_fail d _ _

theorem usesOnly_defineVariable {operands : List Expr} (h : ∀ e ∈ operands, e.names ⊆ V) :
    UsesOnly V (defineVariable d ev operands) := by
  unfold defineVariable
  split
  · rename_i name definition
    have hn : (Expr.symbol name).names ⊆ V := h _ (by simp)
    apply (valueOf_usesOnly d hev (h definition (by simp)) _).bind
    intro value known
    have stored : (Binding.ofValue value).vocabulary ⊆ V := known
    apply (bindName_usesOnly (hn (by simp)) stored).bind
    intro _ _
    exact usesOnly_unit
  · exact preserves_fail d _ _
  · exact preserves_fail d _ _

theorem usesOnly_conditional {operands : List Expr} (h : ∀ e ∈ operands, e.names ⊆ V) :
    UsesOnly V (conditional d ev operands) := by
  unfold conditional
  split
  · rename_i condition first second
    apply (valueOf_usesOnly d hev (h condition (by simp)) _).bind
    intro value _
    have branch : (if value.isEmptyList then second else first).names ⊆ V := by
      split <;> exact h _ (by simp)
    apply (hev _ branch).bind
    intro _ _
    exact hev first (h first (by simp))
  · exact preserves_fail d _ _

theorem usesOnly_items {es : List Expr} (h : ∀ e ∈ es, e.names ⊆ V) :
    UsesOnly V (items ev es) := by
  apply (preserves_mapM fun e he => hev e (h e he)).bind
  intro outcomes known
  apply usesOnly_value
  rw [Expr.names_list_subset_iff]
  intro v hv
  induction outcomes with
  | nil => cases hv
  | cons outcome rest ih =>
      rw [List.forall_mem_cons] at known
      cases outcome with
      | unit => exact ih known.2 hv
      | value first =>
          rcases List.mem_cons.1 hv with rfl | hv
          · exact known.1
          · exact ih known.2 hv

theorem usesOnly_call {b : Binding} (hb : b.vocabulary ⊆ V) (x : String) {args : List Expr}
    (h : ∀ e ∈ args, e.names ⊆ V) : UsesOnly V (call d ev x b args) := by
  obtain ⟨params, body⟩ := List.append_subset.1 hb
  unfold call
  split
  · apply (values_usesOnly d hev h _).bind
    intro values known
    apply (noteCall_usesOnly _ _).bind
    intro _ _
    apply within_usesOnly _ (hev b.body body)
    apply Frame.vocabulary_ofValues
    intro pair hp
    obtain ⟨hname, hvalue⟩ := List.of_mem_zip hp
    exact ⟨params hname, known _ hvalue⟩
  · exact preserves_fail d _ _

theorem usesOnly_name {x : String} (hx : x ∈ V) {args : List Expr}
    (h : ∀ e ∈ args, e.names ⊆ V) : UsesOnly V (name d ev x args) := by
  apply environment_usesOnly.bind
  intro env henv
  cases hb : env.lookup x with
  | none => exact usesOnly_value (by simpa using hx)
  | some b =>
      have known : b.vocabulary ⊆ V := Environment.vocabulary_of_lookup hb henv
      show UsesOnly V (if b.isFunction then call d ev x b args else ev b.body)
      split
      · exact usesOnly_call d hev known x h
      · exact hev b.body (List.append_subset.1 known).2

end Rule

/-! ### Evaluation -/

section

variable {V : List String} (hV : IsVocabulary V) (d : Nat) {ev : Evaluator}
  (hev : ∀ e : Expr, e.names ⊆ V → UsesOnly V (ev e))

include hV hev

theorem Operator.run_usesOnly (op : Operator) {operands : List Expr}
    (h : ∀ e ∈ operands, e.names ⊆ V) : UsesOnly V (op.run d ev operands) := by
  cases op with
  | arithmetic op => exact Rule.usesOnly_arithmetic d hev op h
  | equal => exact Rule.usesOnly_comparison hV d hev .equal false h
  | notEqual => exact Rule.usesOnly_comparison hV d hev .notEqual true h
  | negation => exact Rule.usesOnly_negation hV d hev h
  | conjunction => exact Rule.usesOnly_conjunction hV d operands
  | disjunction => exact Rule.usesOnly_disjunction hV d operands
  | defineFunction => exact Rule.usesOnly_defineFunction d h
  | defineVariable => exact Rule.usesOnly_defineVariable d hev h
  | print => exact Rule.usesOnly_print hV d h
  | conditional => exact Rule.usesOnly_conditional d hev h

theorem Form.run_usesOnly (env : Environment) {e : Expr} (he : e.names ⊆ V) :
    UsesOnly V ((env.form e).run d ev) := by
  cases e with
  | number x => exact Rule.usesOnly_value he
  | symbol name => exact Rule.usesOnly_name d hev (he (by simp)) fun e h => by cases h
  | list items =>
      have each := Expr.names_list_subset_iff.1 he
      match items with
      | [] => exact Rule.usesOnly_value he
      | .number x :: rest => exact Rule.usesOnly_items hev each
      | .list es :: rest => exact Rule.usesOnly_items hev each
      | .symbol x :: rest =>
          have head : (Expr.symbol x).names ⊆ V := each _ List.mem_cons_self
          have operands : ∀ e ∈ rest, e.names ⊆ V := fun e h => each e (List.mem_cons_of_mem _ h)
          simp only [Environment.form]
          split
          · exact Operator.run_usesOnly hV d hev _ operands
          split
          · exact Rule.usesOnly_name d hev (head (by simp)) operands
          · exact Rule.usesOnly_items hev each

end

/-- With names from `V`, an evaluation leaves and gives names from `V` only. -/
theorem eval_usesOnly {V : List String} (hV : IsVocabulary V) : ∀ (d : Nat) {e : Expr},
    e.names ⊆ V → UsesOnly V (eval d e)
  | 0, _, _ => fun _ hm => hm
  | d + 1, _, he => by
      apply Eval.environment_usesOnly.bind
      intro env _
      exact Form.run_usesOnly hV d (fun _ => eval_usesOnly hV d) env he

/-! ### Printing -/

/-- A print form prints one line, or fails and leaves the machine as it is. -/
theorem eval_print (d : Nat) (operands : List Expr) (m : Machine) :
    (∃ line, eval d (.list (.symbol "print" :: operands)) m =
      .ok .unit { m with printed := m.printed.push line }) ∨
    ∃ failure, eval d (.list (.symbol "print" :: operands)) m = .error failure m := by
  cases d with
  | zero => exact .inr ⟨_, rfl⟩
  | succ d =>
      show (∃ line, Rule.print d operands m = _) ∨ ∃ failure, Rule.print d operands m = _
      cases rendered : operands.mapM (m.env.render d) with
      | none => exact .inr ⟨_, Rule.print_of_none rendered⟩
      | some texts => exact .inl ⟨_, Rule.print_of_some rendered⟩

/-! ### Sessions -/

/-- What a program leaves and gives has names from `V` only, and it prints lines. -/
structure Report.UsesOnly (V : List String) (r : Report) : Prop where
  bound : r.env.vocabulary ⊆ V
  value : ∀ v, r.result = .value v → v.names ⊆ V
  lines : ∀ line ∈ r.printed, IsLine line

namespace Session

/-- The verdicts, and the names of symbols that programs have written. -/
def knownNames (programs : List String) : List String :=
  [Expr.verdictName true, Expr.verdictName false] ++ programs.flatMap Token.symbolNames

theorem evaluate_usesOnly {V : List String} (hV : IsVocabulary V) (allowed : Allowance) {env : Environment}
    (henv : env.vocabulary ⊆ V) {e : Expr} (he : e.names ⊆ V) :
    (evaluate allowed env e).UsesOnly V := by
  have start : (Machine.start env).UsesOnly V := ⟨henv, fun line h => by cases h⟩
  have left := eval_usesOnly hV allowed.evaluations he (.start env) start
  unfold evaluate
  cases h : eval allowed.evaluations e (.start env) with
  | ok outcome m =>
      rw [h] at left
      refine ⟨left.1.names, ?_, left.1.lines⟩
      intro v hv
      cases outcome with
      | unit => cases hv
      | value w =>
          obtain rfl := Result.value.inj hv
          exact left.2
  | error failure m =>
      rw [h] at left
      refine ⟨left.names, ?_, left.lines⟩
      intro v hv
      cases failure <;> cases hv

theorem run_usesOnly {V : List String} (hV : IsVocabulary V) (allowed : Allowance) {env : Environment}
    (henv : env.vocabulary ⊆ V) {program : String} (hp : Token.symbolNames program ⊆ V) :
    (run allowed env program).UsesOnly V := by
  rcases run_cases allowed env program with ⟨cause, notes, failed⟩ | ⟨ts, e, left, lexed, parsed, run⟩
  · rw [failed]
    exact ⟨henv, fun v hv => (by cases hv), fun line h => (by cases h)⟩
  · obtain ⟨used, rest, rfl, spelled, -⟩ := Expr.parseRoot_eq_ok_iff.1 parsed
    have names : e.names ⊆ V := by
      rw [Expr.names_of_spells spelled]
      simp only [Token.symbolNames, lexed, List.filterMap_append] at hp
      exact (List.append_subset.1 hp).1
    obtain ⟨bound, value, lines⟩ := evaluate_usesOnly hV allowed henv names
    obtain ⟨notes, run⟩ := run
    rw [run]
    exact ⟨bound, value, lines⟩

/-- Each program of a session adds its names to those that may occur. -/
theorem runAll_usesOnly (allowed : Allowance) : ∀ {programs : List String} {V : List String}
    {env : Environment} {k : Nat} {r : Report}, IsVocabulary V → env.vocabulary ⊆ V →
      (runAll allowed env programs)[k]? = some r →
        IsVocabulary (V ++ (programs.take (k + 1)).flatMap Token.symbolNames) ∧
          r.UsesOnly (V ++ (programs.take (k + 1)).flatMap Token.symbolNames)
  | [], _, _, _, _, _, _, h => by simp [runAll] at h
  | program :: rest, V, env, k, r, hV, henv, h => by
      have known : env.vocabulary ⊆ V ++ Token.symbolNames program :=
        List.subset_append_of_subset_left _ henv
      have vocabulary := hV.append_symbolNames program
      have first := run_usesOnly vocabulary allowed known (List.subset_append_right _ _)
      rw [List.take_succ_cons, List.flatMap_cons, ← List.append_assoc]
      cases k with
      | zero =>
          obtain rfl : run allowed env program = r := by simpa [runAll] using h
          simpa using ⟨vocabulary, first⟩
      | succ k => exact runAll_usesOnly allowed vocabulary first.bound (by simpa [runAll] using h)

end Session

/-- The characters at which a text falls into lines. -/
def lineBreaks : List Char :=
  ['\n', '\x0b', '\x0c', '\r', '\x1c', '\x1d', '\x1e', '\x85', '\u2028', '\u2029']

theorem IsLine.not_mem_of_lineBreak {s : String} (h : IsLine s) {c : Char} (hc : c ∈ lineBreaks) :
    c ∉ s.toList := by
  have unprintable : lineBreaks.all (!Text.isPrintable ·) := by decide +kernel
  intro found
  have printable := h c found
  have not : !Text.isPrintable c := List.all_eq_true.1 unprintable c hc
  simp [printable] at not

/-- Lines without line ends in them have as many line ends after them as they are. -/
theorem count_lineFeeds : ∀ {lines : List String}, (∀ line ∈ lines, '\n' ∉ line.toList) →
    (String.join (lines.map (· ++ "\n"))).toList.count '\n' = lines.length
  | [], _ => by simp
  | line :: rest, h => by
      rw [List.forall_mem_cons] at h
      rw [List.map_cons, String.join_cons, String.toList_append, List.count_append,
        count_lineFeeds h.2, String.toList_append, List.count_append, List.count_eq_zero_of_not_mem h.1]
      simp [Nat.add_comm]

theorem isVocabulary_verdicts : IsVocabulary [Expr.verdictName true, Expr.verdictName false] where
  symbols := by decide +kernel
  verdicts flag := by cases flag <;> simp

/-- **Names of a session.**  In a session that begins with the verdicts, whatever becomes of its
programs, the names that are bound, used in bodies or given as results are the verdicts and names of
symbols that the programs so far have written.  So every result is read back from its source form;
and what each program prints are lines without line breaks, one for each print form that succeeds and
none for one that fails. -/
theorem session_vocabulary :
    (∀ (allowed : Session.Allowance) (programs : List String) (k : Nat) (r : Report),
      (Session.runAll allowed .default programs)[k]? = some r →
        r.env.vocabulary ⊆ Session.knownNames (programs.take (k + 1)) ∧
        (∀ v, r.result = .value v →
          v.names ⊆ Session.knownNames (programs.take (k + 1)) ∧
          ∃ ts, Token.tokenize v.source = .ok ts ∧
            ∀ depth, v.nesting ≤ depth → Expr.parseRoot depth ts = .ok (v, 0)) ∧
        (∀ line ∈ r.printed, ∀ c ∈ lineBreaks, c ∉ line.toList) ∧
        r.output.toList.count '\n' = r.printed.length) ∧
    (∀ (d : Nat) (operands : List Expr) (m : Machine),
      (∃ line, eval d (.list (.symbol "print" :: operands)) m =
        .ok .unit { m with printed := m.printed.push line }) ∨
      ∃ failure, eval d (.list (.symbol "print" :: operands)) m = .error failure m) := by
  refine ⟨?_, eval_print⟩
  intro allowed programs k r hr
  have known : Environment.default.vocabulary ⊆
      [Expr.verdictName true, Expr.verdictName false] := by decide
  obtain ⟨vocabulary, bound, value, lines⟩ :=
    Session.runAll_usesOnly allowed isVocabulary_verdicts known hr
  have unbroken : ∀ line ∈ r.printed, ∀ c ∈ lineBreaks, c ∉ line.toList :=
    fun line hl c hc => (lines line hl).not_mem_of_lineBreak hc
  refine ⟨bound, fun v hv => ⟨value v hv, ?_⟩, unbroken, ?_⟩
  · exact Expr.exists_tokens_of_source (vocabulary.writable (value v hv))
  · exact count_lineFeeds fun line hl => unbroken line hl '\n' (by decide)

/-- After a function definition, a call that prints and gives a list; the name `w` is not written. -/
theorem vocabulary_of_call : ∃ r,
    (Session.runAll ⟨2, 10⟩ .default
      ["(fn f (x) (y (print x 1e-7) x))", "(f (= 1 2))"])[1]? = some r ∧
    "w" ∉ r.env.vocabulary ∧ (∀ line ∈ r.printed, ∀ c ∈ lineBreaks, c ∉ line.toList) := by
  refine ⟨_, rfl, ?_⟩
  obtain ⟨bound, -, lines, -⟩ := session_vocabulary.1 ⟨2, 10⟩
    ["(fn f (x) (y (print x 1e-7) x))", "(f (= 1 2))"] 1 _ rfl
  refine ⟨fun h => ?_, lines⟩
  have written := bound h
  revert written
  decide +kernel

end DynLisp
