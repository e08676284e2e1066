import DynLisp.Proofs.Names
import DynLisp.Proofs.Simulation
import DynLisp.Session

/-! # Names that nobody mentions

If a name occurs in the evaluated expression nowhere, and in no body that is bound to another name, then
it does not matter whether and how this name is bound, in whichever frames: nothing the evaluation says
or prints depends on it, and the name stays bound as it is.

Two environments that differ in the bindings of such a name correspond: every other name corresponds to
itself, and the name in question is set aside.  It may still be the name of a parameter. -/

namespace DynLisp

/-! ### Frames without a name -/

namespace Frame

/-- The frame with the bindings of all other names. -/
def without (name : String) (f : Frame) : Frame :=
  ⟨f.entries.filter fun entry => !(entry.1 == name)⟩

/-- The bindings of the name. -/
def bindingsOf (name : String) (f : Frame) : List (String × Binding) :=
  f.entries.filter fun entry => entry.1 == name

/-- The frame with the name bound anew, or with its bindings removed. -/
def rebind (name : String) : Option Binding → Frame → Frame
  | some b, f => f.bind name b
  | none, f => f.without name

theorem without_rebind (name : String) (b? : Option Binding) (f : Frame) :
    (f.rebind name b?).without name = f.without name := by
  cases b? with
  | some b =>
      rw [rebind, without, without, bind, filter_bindEntry fun other => !(other == name)]
      simp
  | none => simp [rebind, without]

end Frame

namespace Environment

/-- The environment with the bindings of all other names. -/
def without (name : String) (env : Environment) : Environment :=
  ⟨env.frames.map (Frame.without name)⟩

/-- The bindings of the name, frame by frame. -/
def bindingsOf (name : String) (env : Environment) : List (List (String × Binding)) :=
  env.frames.map (Frame.bindingsOf name)

/-- The environment with the name bound anew, or its bindings removed, in one frame. -/
def rebind (name : String) (b? : Option Binding) (i : Nat) (env : Environment) : Environment :=
  ⟨env.frames.modify i (Frame.rebind name b?)⟩

theorem without_rebind (name : String) (b? : Option Binding) (i : Nat) (env : Environment) :
    (env.rebind name b? i).without name = env.without name := by
  obtain ⟨frames⟩ := env
  simp only [without, rebind, Environment.mk.injEq]
  induction frames generalizing i with
  | nil => simp
  | cons f rest ih => cases i <;> simp [Frame.without_rebind, ih]

/-- The name occurs in no body but those that are bound to it. -/
def Unmentioned (name : String) (env : Environment) : Prop :=
  ∀ f ∈ env.frames, ∀ entry ∈ f.entries, entry.1 ≠ name → name ∉ entry.2.body.names

end Environment

/-! ### Setting a name aside -/

/-- Every other name corresponds to itself. -/
def settingAside {name : String} (h : ∀ flag, name ≠ Expr.verdictName flag) : Correspondence where
  Pairs s t := s = t ∧ s ≠ name
  aside s := s == name
  one_to_one := by
    rintro s _ s' _ ⟨rfl, -⟩ ⟨rfl, -⟩
    exact Iff.rfl
  reserved := by
    rintro s _ ⟨rfl, -⟩
    rfl
  verdict flag := ⟨rfl, (h flag).symm⟩
  kept := by
    rintro s _ ⟨rfl, other⟩
    simp [other]

section

variable {name : String} (h : ∀ flag, name ≠ Expr.verdictName flag)

theorem exact_settingAside : (settingAside h).Exact := fun pair => pair.1

theorem places_settingAside_iff {s t : String} : (settingAside h).Places s t ↔ s = t := by
  constructor
  · rintro (⟨rfl, -⟩ | ⟨left, right⟩)
    · rfl
    · exact (beq_iff_eq.1 left).trans (beq_iff_eq.1 right).symm
  · rintro rfl
    by_cases same : s = name
    · exact .inr ⟨beq_iff_eq.2 same, beq_iff_eq.2 same⟩
    · exact .inl ⟨rfl, same⟩

mutual

theorem Expr.alike_of_not_mem_names : ∀ {e : Expr}, name ∉ e.names → e.Alike (settingAside h) e
  | .number x, _ => .number x
  | .symbol s, absent => by
      rw [names_symbol, List.mem_singleton] at absent
      exact .symbol ⟨rfl, fun same => absent same.symm⟩
  | .list items, absent => by
      rw [names] at absent
      exact .list (alike_of_not_mem_namesOfItems absent)

theorem Expr.alike_of_not_mem_namesOfItems : ∀ {items : List Expr}, name ∉ namesOfItems items →
    List.Forall₂ (Expr.Alike (settingAside h)) items items
  | [], _ => .nil
  | item :: rest, absent => by
      rw [namesOfItems, List.mem_append, not_or] at absent
      exact .cons (alike_of_not_mem_names absent.1) (alike_of_not_mem_namesOfItems absent.2)

end

theorem Binding.alike_settingAside {b : Binding} (absent : name ∉ b.body.names) :
    b.Alike (settingAside h) b where
  params := List.forall₂_same.2 fun _ _ => (places_settingAside_iff h).2 rfl
  body := Expr.alike_of_not_mem_names h absent

theorem Binding.eq_of_alike_settingAside {b b' : Binding} (alike : b.Alike (settingAside h) b') :
    b = b' := by
  obtain ⟨params, body⟩ := b
  obtain ⟨params', body'⟩ := b'
  rw [Binding.mk.injEq]
  exact ⟨eq_of_forall₂ (fun _ _ => (places_settingAside_iff h).1) alike.params,
    alike.body.eq_of_exact (exact_settingAside h)⟩

theorem Frame.without_eq_of_alike {f f' : Frame} (alike : f.Alike (settingAside h) f') :
    f.without name = f'.without name := by
  have same : f.kept (settingAside h) = f'.kept (settingAside h) := eq_of_forall₂ (fun _ _ entries =>
    Prod.ext entries.name.1 (Binding.eq_of_alike_settingAside h entries.binding)) alike
  exact congrArg Frame.mk same

theorem Environment.without_eq_of_alike {env env' : Environment}
    (alike : env.Alike (settingAside h) env') : env.without name = env'.without name := by
  refine congrArg Environment.mk (eq_of_forall₂ (fun _ _ same => same) ?_)
  rw [List.forall₂_map_left_iff, List.forall₂_map_right_iff]
  exact alike.imp fun _ _ => Frame.without_eq_of_alike h

theorem Frame.alike_of_without_eq {f f' : Frame}
    (unmentioned : ∀ entry ∈ f.entries, entry.1 ≠ name → name ∉ entry.2.body.names)
    (same : f.without name = f'.without name) : f.Alike (settingAside h) f' := by
  have kept : f.kept (settingAside h) = f'.kept (settingAside h) := congrArg Frame.entries same
  rw [Alike, ← kept, List.forall₂_same]
  intro entry mem
  obtain ⟨mem, other⟩ := List.mem_filter.1 mem
  have other : entry.1 ≠ name := by simpa [settingAside] using other
  exact ⟨⟨rfl, other⟩, Binding.alike_settingAside h (unmentioned entry mem other)⟩

theorem Environment.alike_of_without_eq {env env' : Environment} (unmentioned : env.Unmentioned name)
    (same : env.without name = env'.without name) : env.Alike (settingAside h) env' := by
  obtain ⟨frames⟩ := env
  obtain ⟨frames'⟩ := env'
  have each : frames.map (Frame.without name) = frames'.map (Frame.without name) :=
    congrArg Environment.frames same
  show List.Forall₂ (Frame.Alike (settingAside h)) frames frames'
  clear same
  induction frames generalizing frames' with
  | nil => rw [List.map_eq_nil_iff.1 each.symm]; exact .nil
  | cons f rest ih =>
      cases frames' with
      | nil => cases each
      | cons f' rest' =>
          obtain ⟨first, others⟩ := List.cons.inj each
          have unmentioned := List.forall_mem_cons.1 unmentioned
          exact .cons (Frame.alike_of_without_eq h unmentioned.1 first) (ih unmentioned.2 _ others)

/-! ### Evaluations -/

/-- The machines agree in all but the bindings of the name, which are `left` and `right`. -/
theorem Machine.Alike.without {left right : List (List (String × Binding))} {m m' : Machine}
    (alike : m.Alike (settingAside h) left right m') :
    m'.env.without name = m.env.without name ∧ m'.printed = m.printed ∧ m'.calls = m.calls ∧
      m.env.bindingsOf name = left ∧ m'.env.bindingsOf name = right := by
  have calls : m.calls.toList = m'.calls.toList := eq_of_forall₂ (fun call call' same => by
    obtain ⟨function, arguments⟩ := call
    obtain ⟨function', arguments'⟩ := call'
    rw [Call.mk.injEq]
    exact ⟨same.function.1, same.arguments⟩) alike.calls
  have printed : m.printed.toList = m'.printed.toList :=
    Correspondence.Exact.texts_eq (exact_settingAside h) alike.printed
  exact ⟨(Environment.without_eq_of_alike h alike.env).symm, (Array.toList_inj.1 printed).symm,
    (Array.toList_inj.1 calls).symm, alike.left, alike.right⟩

theorem Outcome.eq_of_alike_settingAside {outcome outcome' : Outcome}
    (alike : outcome.Alike (settingAside h) outcome') : outcome = outcome' := by
  cases alike with
  | value alike => rw [alike.eq_of_exact (exact_settingAside h)]
  | unit => rfl

theorem Failure.eq_of_alike_settingAside {failure failure' : Failure}
    (alike : failure.Alike (settingAside h) failure') : failure = failure' := by
  cases alike with
  | error alike => rw [alike.exact (exact_settingAside h)]
  | exhausted => rfl

end

namespace Session

/-- **Names that nobody mentions.**  Let a name that is no verdict occur neither in an expression nor in
a body that is bound to another name.  In an environment that differs in the bindings of this name only,
the expression has the same result or error and prints the same lines.  The environments that are left
differ in the bindings of this name only, and these are what they were. -/
theorem evaluate_unmentioned {name : String} (h : ∀ flag, name ≠ Expr.verdictName flag) {e : Expr}
    (absent : name ∉ e.names) {env env' : Environment} (unmentioned : env.Unmentioned name)
    (same : env'.without name = env.without name) (allowed : Allowance) :
    (evaluate allowed env' e).result = (evaluate allowed env e).result ∧
    (evaluate allowed env' e).printed = (evaluate allowed env e).printed ∧
    (evaluate allowed env' e).notes = (evaluate allowed env e).notes ∧
    (evaluate allowed env' e).env.without name = (evaluate allowed env e).env.without name ∧
    (evaluate allowed env e).env.bindingsOf name = env.bindingsOf name ∧
    (evaluate allowed env' e).env.bindingsOf name = env'.bindingsOf name := by
  have start : Machine.Alike (settingAside h) (env.bindingsOf name) (env'.bindingsOf name)
      (.start env) (.start env') :=
    { env := Environment.alike_of_without_eq h unmentioned same.symm
      left := rfl
      right := rfl
      printed := .nil
      calls := .nil }
  have alike := eval_alike allowed.evaluations (Expr.alike_of_not_mem_names h absent) start
  unfold evaluate
  revert alike
  generalize eval allowed.evaluations e (.start env) = run
  generalize eval allowed.evaluations e (.start env') = run'
  intro alike
  cases run <;> cases run'
  · obtain ⟨outcomes, machines⟩ := alike
    obtain rfl := Outcome.eq_of_alike_settingAside h outcomes
    obtain ⟨envs, printed, calls, left, right⟩ := machines.without h
    simp only [printed, calls, envs, left, right, and_self]
  · exact alike.elim
  · exact alike.elim
  · obtain ⟨failures, machines⟩ := alike
    obtain rfl := Failure.eq_of_alike_settingAside h failures
    obtain ⟨envs, printed, calls, left, right⟩ := machines.without h
    simp only [printed, calls, envs, left, right, and_self]

/-- Where `f(x): (print y)` is all that is bound, `(f 1)` prints `y`.  It also does if `x` is a variable
that stands for itself. -/
theorem evaluate_unmentioned_parameter :
    (∀ flag, "x" ≠ Expr.verdictName flag) ∧
    "x" ∉ (Expr.list [.symbol "f", .number 1]).names ∧
    (Environment.mk [⟨[("f", ⟨["x"], .list [.symbol "print", .symbol "y"]⟩)]⟩]).Unmentioned "x" ∧
    (evaluate ⟨1, 4⟩ ((Environment.mk [⟨[("f", ⟨["x"], .list [.symbol "print", .symbol "y"]⟩)]⟩]).rebind
      "x" (some (.ofValue (.symbol "x"))) 0) (.list [.symbol "f", .number 1])).printed = ["y"] := by
  have verdict : ∀ flag, "x" ≠ Expr.verdictName flag := by decide
  have absent : "x" ∉ (Expr.list [.symbol "f", .number 1]).names := by simp
  have unmentioned :
      (Environment.mk [⟨[("f", ⟨["x"], .list [.symbol "print", .symbol "y"]⟩)]⟩]).Unmentioned "x" := by
    simp [Environment.Unmentioned]
  have same := Environment.without_rebind "x" (some (.ofValue (.symbol "x"))) 0
    ⟨[⟨[("f", ⟨["x"], .list [.symbol "print", .symbol "y"]⟩)]⟩]⟩
  exact ⟨verdict, absent, unmentioned,
    (evaluate_unmentioned verdict absent unmentioned same ⟨1, 4⟩).2.1.trans rfl⟩

end Session
end DynLisp
