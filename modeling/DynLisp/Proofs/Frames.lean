import DynLisp.Proofs.Effects
import DynLisp.Session

/-! # The discipline of frames

An evaluation leaves as many frames as it found.  It may bind names in the innermost frame, where old
names keep their places, and it never touches a frame further out (`Environment.Grows`).

That the frame of a call is dropped again is no matter of counting alone: the evaluation of the body
could leave another number of frames, and then the wrong one would be dropped.  So growth is what an
evaluation keeps (`effects_grows`), and from growth inside a call it follows that the call itself
changes nothing outside (`env_after_within`). -/

namespace DynLisp

/-! ### Growth of an environment -/

namespace Frame

theorem mem_names_iff (f : Frame) (name : String) : name ∈ f.names ↔ f.contains name := by
  obtain ⟨entries⟩ := f
  simp only [names, contains, find?]
  induction entries with
  | nil => simp
  | cons entry rest ih =>
      obtain ⟨key, b⟩ := entry
      by_cases h : name = key
      · simp [h]
      · have : (name == key) = false := beq_eq_false_iff_ne.2 h
        simp only [List.map_cons, List.mem_cons, List.lookup_cons, this, h, false_or]
        exact ih

theorem names_prefix_names_bind (f : Frame) (name : String) (b : Binding) :
    f.names <+: (f.bind name b).names := by
  rw [names_bind]
  split
  · exact List.prefix_rfl
  · exact List.prefix_append _ _

end Frame

namespace Environment

/-- The same number of frames, the same frames but for the innermost one, and in that one the names
from before, in order and in front of any others. -/
structure Grows (before after : Environment) : Prop where
  size : after.size = before.size
  outer : after.frames.tail = before.frames.tail
  names : ∀ f ∈ before.frames.head?, ∀ g ∈ after.frames.head?, f.names <+: g.names

theorem Grows.refl (env : Environment) : env.Grows env := by
  refine ⟨rfl, rfl, fun f hf g hg => ?_⟩
  obtain rfl : f = g := Option.mem_unique hf hg
  exact List.prefix_rfl

theorem Grows.trans {env₁ env₂ env₃ : Environment} (h₁ : env₁.Grows env₂) (h₂ : env₂.Grows env₃) :
    env₁.Grows env₃ := by
  refine ⟨h₂.size.trans h₁.size, h₂.outer.trans h₁.outer, fun f hf h hh => ?_⟩
  obtain ⟨frames₂⟩ := env₂
  cases frames₂ with
  | nil =>
      have := h₁.size
      obtain ⟨frames₁⟩ := env₁
      cases frames₁ with
      | nil => simp at hf
      | cons _ _ => simp [Environment.size] at this
  | cons g rest => exact (h₁.names f hf g rfl).trans (h₂.names g rfl h hh)

theorem grows_of_bind {env env' : Environment} {name : String} {b : Binding}
    (h : env.bind name b = .ok env') : env.Grows env' := by
  obtain ⟨frames⟩ := env
  cases frames with
  | nil => simp [bind] at h
  | cons inner outer =>
      simp only [bind, Except.ok.injEq] at h
      subst h
      refine ⟨rfl, rfl, fun f hf g hg => ?_⟩
      simp only [List.head?_cons, Option.mem_some] at hf hg
      subst hf hg
      exact inner.names_prefix_names_bind name b

/-- Dropping the innermost frame undoes a push, also after growth. -/
theorem Grows.dropInnermost_eq {env after : Environment} {f : Frame}
    (h : (env.push f).Grows after) : after.dropInnermost = env := by
  have outer := h.outer
  simp only [push, List.tail_cons] at outer
  simp only [dropInnermost, outer]

/-- Names that the one frame of an environment binds stay bound. -/
theorem Grows.contains_of_singleton {f : Frame} {after : Environment} {name : String}
    (h : Grows ⟨[f]⟩ after) (hn : f.contains name) : after.contains name := by
  obtain ⟨frames⟩ := after
  cases frames with
  | nil => simpa [Environment.size] using h.size
  | cons g rest =>
      have stays := (h.names f rfl g rfl).subset ((f.mem_names_iff name).2 hn)
      simp [contains, (g.mem_names_iff name).1 stays]

end Environment

/-! ### Evaluation -/

theorem effects_grows : Effects fun m m' => m.env.Grows m'.env where
  refl m := .refl m.env
  trans h₁ h₂ := h₁.trans h₂
  print _ m := .refl m.env
  note _ _ m := .refl m.env
  bind name b m := by
    unfold Eval.after Eval.bindName
    cases h : m.env.bind name b with
    | ok env => simpa [h] using Environment.grows_of_bind h
    | error cause => simpa [h] using Environment.Grows.refl m.env
  within {m m'} f h := by
    have back : m'.env.dropInnermost = m.env := h.dropInnermost_eq
    simp only [back]
    exact .refl m.env

theorem eval_grows (d : Nat) (e : Expr) (m : Machine) : m.env.Grows ((eval d e).after m).env :=
  effects_grows.eval_keeps d e m

namespace Eval

variable {α β : Type}

theorem env_after_within (f : Frame) {body : Eval α}
    (hb : body.Keeps fun m m' => m.env.Grows m'.env) (m : Machine) :
    ((within f body).after m).env = m.env := by
  rw [after_within]
  exact (hb { m with env := m.env.push f }).dropInnermost_eq

/-- What follows a computation does not matter to the environment if it leaves it as it is. -/
theorem env_after_bind {x : Eval α} {f : α → Eval β} (hf : ∀ a m, ((f a).after m).env = m.env)
    (m : Machine) : ((x >>= f).after m).env = (x.after m).env := by
  cases h : x m with
  | ok a m' =>
      have e : (x >>= f).after m = (f a).after m' := by simp only [after, bind_of_ok h]
      rw [e, hf, after_of_ok h]
  | error e m' => rw [after_of_error (bind_of_error h), after_of_error h]

end Eval

/-- A list that begins with the name of a function is a call of it. -/
theorem eval_call {d : Nat} {f : String} {b : Binding} {args : List Expr} {m : Machine}
    (hf : Operator.ofName? f = none) (hb : m.env.lookup f = some b) (hfun : b.isFunction) :
    eval (d + 1) (.list (.symbol f :: args)) m = Rule.call d (eval d) f b args m := by
  show (m.env.form _).run d (eval d) m = _
  rw [Environment.form_of_lookup hf hb]
  show Rule.name d (eval d) f args m = _
  rw [Rule.name_of_lookup hb, if_pos hfun]

/-- A call leaves the environment that the evaluation of its arguments leaves; they are not evaluated
if their number is wrong. -/
theorem env_after_call (d : Nat) (name : String) (b : Binding) (args : List Expr) (m : Machine) :
    ((Rule.call d (eval d) name b args).after m).env =
      if args.length = b.params.length then
        ((args.mapM fun arg => Evaluator.valueOf (eval d) d arg .unitArgument).after m).env
      else m.env := by
  unfold Rule.call
  split
  · refine Eval.env_after_bind (fun values m => ?_) m
    exact Eval.env_after_within _ (eval_grows d b.body) _
  · rw [Eval.after_fail]

/-! ### Sessions -/

namespace Session

theorem env_evaluate (allowed : Allowance) (env : Environment) (e : Expr) :
    (evaluate allowed env e).env = ((eval allowed.evaluations e).after (.start env)).env := by
  unfold evaluate Eval.after
  split <;> rename_i h <;> simp [h]

theorem run_grows (allowed : Allowance) (env : Environment) (program : String) :
    env.Grows (run allowed env program).env := by
  unfold run
  split
  · exact .refl env
  · split
    · exact .refl env
    · show env.Grows (evaluate allowed env _).env
      rw [env_evaluate]
      exact eval_grows allowed.evaluations _ (.start env)

theorem runAll_grows (allowed : Allowance) : ∀ (programs : List String) (env : Environment),
    ∀ r ∈ runAll allowed env programs, env.Grows r.env
  | [], _, r, hr => by simp [runAll] at hr
  | program :: rest, env, r, hr => by
      have first := run_grows allowed env program
      simp only [runAll, List.mem_cons] at hr
      rcases hr with rfl | hr
      · exact first
      · exact first.trans (runAll_grows allowed rest _ r hr)

end Session

/-- **Frame discipline.**  Whatever the outcome, an evaluation makes the environment grow and nothing
else; a call leaves in it what the evaluation of its arguments left; and a session that begins with the
verdicts has one frame all along, in which they are bound. -/
theorem eval_keeps_frames :
    (∀ (d : Nat) (e : Expr) (m : Machine), m.env.Grows ((eval d e).after m).env) ∧
    (∀ (d : Nat) (f : String) (b : Binding) (args : List Expr) (m : Machine),
      Operator.ofName? f = none → m.env.lookup f = some b → b.isFunction →
      ((eval (d + 1) (.list (.symbol f :: args))).after m).env =
        if args.length = b.params.length then
          ((args.mapM fun arg => Evaluator.valueOf (eval d) d arg .unitArgument).after m).env
        else m.env) ∧
    (∀ (allowed : Session.Allowance) (programs : List String), ∀ r ∈ Session.runAll allowed .default programs,
      r.env.size = 1 ∧ ∀ flag, r.env.contains (Expr.verdictName flag)) := by
  refine ⟨eval_grows, ?_, ?_⟩
  · intro d f b args m hf hb hfun
    rw [← env_after_call d f b args m]
    simp only [Eval.after, eval_call hf hb hfun]
  · intro allowed programs r hr
    have grows := Session.runAll_grows allowed programs _ r hr
    refine ⟨grows.size, fun flag => ?_⟩
    apply grows.contains_of_singleton
    cases flag <;> decide

/-- A call whose argument binds `y` and whose body fails, and a session that binds `True` anew. -/
theorem frames_of_failing_call :
    ((eval 4 (.list [.symbol "f", .list [.list [.symbol "let", .symbol "y", .number 1]]])).after
        (.start ⟨[⟨[("f", ⟨["x"], .list [.symbol "+", .symbol "x"]⟩)]⟩]⟩)).env =
      (([Expr.list [.list [.symbol "let", .symbol "y", .number 1]]].mapM fun arg =>
          Evaluator.valueOf (eval 3) 3 arg .unitArgument).after
        (.start ⟨[⟨[("f", ⟨["x"], .list [.symbol "+", .symbol "x"]⟩)]⟩]⟩)).env ∧
    (Session.run ⟨1, 2⟩ .default "(let True 5)").env.size = 1 := by
  refine ⟨?_, ?_⟩
  · rw [eval_keeps_frames.2.1 3 "f" ⟨["x"], .list [.symbol "+", .symbol "x"]⟩ _ _ (by decide) rfl rfl]
    rfl
  · have reported : Session.run ⟨1, 2⟩ .default "(let True 5)" ∈
        Session.runAll ⟨1, 2⟩ .default ["(let True 5)"] := by simp [Session.runAll]
    exact (eval_keeps_frames.2.2 ⟨1, 2⟩ ["(let True 5)"] _ reported).1

end DynLisp
