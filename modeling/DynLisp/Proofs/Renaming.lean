import Mathlib.Logic.Equiv.Basic
import DynLisp.Proofs.Simulation

/-! # Renaming

Symbols, names of frames and parameters are renamed alike by a map of names.  If the map is one-to-one
and leaves the reserved names and the verdicts as they are, then the renamed expression, evaluated in
the renamed environment, does what the expression does, renamed.

A renaming is a correspondence in which nothing is set aside, and in which what is alike to something
is what the map makes of it. -/

namespace DynLisp

/-! ### Renamed expressions and environments -/

namespace Expr

mutual

/-- The expression with every symbol renamed. -/
def rename (r : String → String) : Expr → Expr
  | number x => number x
  | symbol name => symbol (r name)
  | list items => list (renameItems r items)

def renameItems (r : String → String) : List Expr → List Expr
  | [] => []
  | item :: rest => item.rename r :: renameItems r rest

end

variable {r : String → String}

@[simp] theorem rename_number (x : Float) : (number x).rename r = number x := by simp [rename]

@[simp] theorem rename_symbol (name : String) : (symbol name).rename r = symbol (r name) := by
  simp [rename]

@[simp] theorem rename_list (items : List Expr) :
    (list items).rename r = list (items.map (rename r)) := by
  rw [rename]
  congr 1
  induction items with
  | nil => rfl
  | cons item rest ih => rw [renameItems, ih, List.map_cons]

end Expr

def Outcome.rename (r : String → String) : Outcome → Outcome
  | .value e => .value (e.rename r)
  | .unit => .unit

/-- The parameters and the body are renamed. -/
def Binding.rename (r : String → String) (b : Binding) : Binding :=
  ⟨b.params.map r, b.body.rename r⟩

/-- The names and what they stand for are renamed. -/
def Frame.rename (r : String → String) (f : Frame) : Frame :=
  ⟨f.entries.map fun entry => (r entry.1, entry.2.rename r)⟩

def Environment.rename (r : String → String) (env : Environment) : Environment :=
  ⟨env.frames.map (Frame.rename r)⟩

/-! ### Renamings -/

/-- Different names stay different, and the names with a meaning of their own stay as they are. -/
structure IsRenaming (r : String → String) : Prop where
  injective : Function.Injective r
  reserved : ∀ op : Operator, r op.name = op.name
  verdict : ∀ flag, r (Expr.verdictName flag) = Expr.verdictName flag

namespace IsRenaming

variable {r : String → String}

theorem ofName?_eq (hr : IsRenaming r) (name : String) :
    Operator.ofName? name = Operator.ofName? (r name) := by
  ext op
  rw [Operator.ofName?_eq_some_iff, Operator.ofName?_eq_some_iff]
  constructor
  · rintro rfl
    exact (hr.reserved op).symm
  · intro h
    exact hr.injective ((hr.reserved op).trans h)

/-- The environment that sessions begin with has no names but the verdicts. -/
theorem rename_default (hr : IsRenaming r) : Environment.default.rename r = .default := by
  simp [Environment.rename, Environment.default, Frame.rename, Environment.verdictFrame, hr.verdict,
    Binding.rename, Binding.ofValue]

/-- Each name corresponds to its new name. -/
def correspondence (hr : IsRenaming r) : Correspondence where
  Pairs s t := r s = t
  aside _ := false
  one_to_one := by
    rintro s _ s' _ rfl rfl
    exact hr.injective.eq_iff.symm
  reserved := by
    rintro s _ rfl
    exact hr.ofName?_eq s
  verdict := hr.verdict
  kept _ := ⟨rfl, rfl⟩

end IsRenaming

/-- A relation that is a map relates a list to the mapped list only. -/
theorem forall₂_iff_map {α β : Type} {R : α → β → Prop} {f : α → β} (h : ∀ a b, R a b ↔ f a = b)
    {as : List α} {bs : List β} : List.Forall₂ R as bs ↔ as.map f = bs := by
  have graph : R = fun a b => f a = b := funext fun a => funext fun b => propext (h a b)
  rw [graph, ← List.forall₂_map_left_iff, List.forall₂_eq_eq_eq]

section

variable {r : String → String} (hr : IsRenaming r)

mutual

theorem Expr.alike_rename : ∀ e : Expr, e.Alike hr.correspondence (e.rename r)
  | .number x => by
      rw [rename_number]
      exact .number x
  | .symbol name => by
      rw [rename_symbol]
      exact .symbol rfl
  | .list items => by
      rw [Expr.rename]
      exact .list (alike_renameItems items)

theorem Expr.alike_renameItems :
    ∀ items : List Expr, List.Forall₂ (Expr.Alike hr.correspondence) items (renameItems r items)
  | [] => .nil
  | item :: rest => .cons (alike_rename item) (alike_renameItems rest)

end

/-- What corresponds to an expression is the renamed expression, and so on for all that is made of
expressions and names. -/
theorem Expr.alike_iff_rename {e e' : Expr} : e.Alike hr.correspondence e' ↔ e.rename r = e' := by
  constructor
  · intro h
    refine Alike.induct (motive := fun e e' => e.rename r = e') ?_ ?_ ?_ h
    · exact rename_number
    · intro s t pair
      rw [rename_symbol, show r s = t from pair]
    · intro es es' items
      rw [rename_list, (forall₂_iff_map fun _ _ => Iff.rfl).1 items]
  · rintro rfl
    exact alike_rename hr e

theorem Outcome.alike_iff_rename {outcome outcome' : Outcome} :
    outcome.Alike hr.correspondence outcome' ↔ outcome.rename r = outcome' := by
  constructor
  · rintro (h | _)
    · rw [rename, (Expr.alike_iff_rename hr).1 h]
    · rfl
  · rintro rfl
    cases outcome with
    | value e => exact .value (e.alike_rename hr)
    | unit => exact .unit

theorem IsRenaming.places_iff (s t : String) : hr.correspondence.Places s t ↔ r s = t := by
  simp [Correspondence.Places, IsRenaming.correspondence]

theorem Binding.alike_iff_rename {b b' : Binding} :
    b.Alike hr.correspondence b' ↔ b.rename r = b' := by
  obtain ⟨params, body⟩ := b
  obtain ⟨params', body'⟩ := b'
  rw [rename, Binding.mk.injEq, ← forall₂_iff_map hr.places_iff, ← Expr.alike_iff_rename hr]
  exact ⟨fun h => ⟨h.params, h.body⟩, fun h => ⟨h.1, h.2⟩⟩

theorem Frame.alike_iff_rename (f f' : Frame) : f.Alike hr.correspondence f' ↔ f.rename r = f' := by
  obtain ⟨entries⟩ := f
  obtain ⟨entries'⟩ := f'
  have entry_iff (entry entry' : String × Binding) : EntryAlike hr.correspondence entry entry' ↔
      (r entry.1, entry.2.rename r) = entry' := by
    obtain ⟨name', b'⟩ := entry'
    rw [Prod.mk.injEq, ← Binding.alike_iff_rename hr]
    exact ⟨fun h => ⟨h.name, h.binding⟩, fun h => ⟨h.1, h.2⟩⟩
  have all (entries : List (String × Binding)) :
      entries.filter (fun entry => !hr.correspondence.aside entry.1) = entries :=
    List.filter_eq_self.2 fun _ _ => rfl
  rw [Frame.Alike, kept, kept, all, all, forall₂_iff_map entry_iff, rename, Frame.mk.injEq]

theorem Environment.alike_iff_rename {env env' : Environment} :
    env.Alike hr.correspondence env' ↔ env.rename r = env' := by
  obtain ⟨frames⟩ := env
  obtain ⟨frames'⟩ := env'
  rw [Environment.Alike, forall₂_iff_map (Frame.alike_iff_rename hr), rename, Environment.mk.injEq]

end

/-! ### Taking a renaming back -/

namespace Expr

variable {r s : String → String}

mutual

/-- A map that takes every name back takes every expression back. -/
theorem rename_leftInverse (h : Function.LeftInverse s r) : ∀ e : Expr, (e.rename r).rename s = e
  | number x => by rw [rename_number, rename_number]
  | symbol name => by rw [rename_symbol, rename_symbol, h name]
  | list items => by rw [rename, rename, renameItems_leftInverse h items]

theorem renameItems_leftInverse (h : Function.LeftInverse s r) :
    ∀ items : List Expr, renameItems s (renameItems r items) = items
  | [] => rfl
  | item :: rest => by
      rw [renameItems, renameItems, rename_leftInverse h item, renameItems_leftInverse h rest]

end

end Expr

theorem Outcome.rename_injective {r : String → String} (hr : Function.Injective r) :
    Function.Injective (Outcome.rename r) := by
  obtain ⟨s, back⟩ := hr.hasLeftInverse
  have returns : Function.LeftInverse (Outcome.rename s) (Outcome.rename r) := by
    rintro (e | _)
    · rw [rename, rename, e.rename_leftInverse back]
    · rfl
  exact returns.injective

/-! ### Renamed evaluations -/

section

variable {r : String → String} (hr : IsRenaming r)

/-- The machine of the renamed evaluation has the renamed environment and as many lines. -/
structure Machine.Renames (r : String → String) (m m' : Machine) : Prop where
  env : m'.env = m.env.rename r
  printed : m'.printed.size = m.printed.size

theorem Machine.Alike.renames {left right : List (List (String × Binding))} {m m' : Machine}
    (h : m.Alike hr.correspondence left right m') : m.Renames r m' where
  env := ((Environment.alike_iff_rename hr).1 h.env).symm
  printed := h.printed.length_eq.symm

theorem Machine.alike_start_rename (env : Environment) :
    Machine.Alike hr.correspondence (env.setAside hr.correspondence)
      ((env.rename r).setAside hr.correspondence) (.start env) (.start (env.rename r)) where
  env := (Environment.alike_iff_rename hr).2 rfl
  left := rfl
  right := rfl
  printed := .nil
  calls := .nil

include hr

/-- Both evaluations have an outcome, fail by an error or are exhausted. -/
theorem eval_rename_cases (d : Nat) (env : Environment) (e : Expr) :
    ∃ m m', m.Renames r m' ∧
      ((∃ outcome, eval d e (.start env) = .ok outcome m ∧
          eval d (e.rename r) (.start (env.rename r)) = .ok (outcome.rename r) m') ∨
        (∃ cause cause', eval d e (.start env) = .error (.error cause) m ∧
          eval d (e.rename r) (.start (env.rename r)) = .error (.error cause') m' ∧
            cause'.kind = cause.kind) ∨
        (eval d e (.start env) = .error .exhausted m ∧
          eval d (e.rename r) (.start (env.rename r)) = .error .exhausted m')) := by
  have alike := eval_alike d (e.alike_rename hr) (Machine.alike_start_rename hr env)
  revert alike
  generalize eval d e (.start env) = result
  generalize eval d (e.rename r) (.start (env.rename r)) = result'
  intro alike
  cases result <;> cases result'
  · obtain ⟨outcomes, machines⟩ := alike
    rw [← (Outcome.alike_iff_rename hr).1 outcomes]
    exact ⟨_, _, machines.renames hr, .inl ⟨_, rfl, rfl⟩⟩
  · exact alike.elim
  · exact alike.elim
  · obtain ⟨failures, machines⟩ := alike
    cases failures with
    | error h => exact ⟨_, _, machines.renames hr, .inr (.inl ⟨_, _, rfl, rfl, h.kind.symm⟩)⟩
    | exhausted => exact ⟨_, _, machines.renames hr, .inr (.inr ⟨rfl, rfl⟩)⟩

/-- **Renaming.**  The renamed expression, evaluated in the renamed environment, has the renamed
outcome if the expression has that outcome, fails by an error of a kind if the expression does, and
exhausts the allowance if the expression does; and the other way round.  It leaves the renamed
environment, and prints as many lines. -/
theorem eval_rename (d : Nat) (env : Environment) (e : Expr) :
    (∀ outcome, (∃ m', eval d (e.rename r) (.start (env.rename r)) = .ok (outcome.rename r) m') ↔
      ∃ m, eval d e (.start env) = .ok outcome m) ∧
    (∀ kind, (∃ cause m', eval d (e.rename r) (.start (env.rename r)) = .error (.error cause) m' ∧
        cause.kind = kind) ↔
      ∃ cause m, eval d e (.start env) = .error (.error cause) m ∧ cause.kind = kind) ∧
    ((∃ m', eval d (e.rename r) (.start (env.rename r)) = .error .exhausted m') ↔
      ∃ m, eval d e (.start env) = .error .exhausted m) ∧
    ((eval d e).after (.start env)).Renames r
      ((eval d (e.rename r)).after (.start (env.rename r))) := by
  obtain ⟨m, m', machines, h⟩ := eval_rename_cases hr d env e
  rcases h with ⟨outcome, ends, ends'⟩ | ⟨cause, cause', ends, ends', kinds⟩ | ⟨ends, ends'⟩
  · rw [Eval.after_of_ok ends, Eval.after_of_ok ends', ends, ends']
    simp [machines, (Outcome.rename_injective hr.injective).eq_iff]
  · rw [Eval.after_of_error ends, Eval.after_of_error ends', ends, ends']
    simp [machines, kinds]
  · rw [Eval.after_of_error ends, Eval.after_of_error ends', ends, ends']
    simp [machines]

end

/-- Exchanging two names without a meaning of their own is a renaming. -/
theorem isRenaming_swap {s t : String} (hs : Operator.ofName? s = none) (ht : Operator.ofName? t = none)
    (hs' : ∀ flag, Expr.verdictName flag ≠ s) (ht' : ∀ flag, Expr.verdictName flag ≠ t) :
    IsRenaming (Equiv.swap s t) where
  injective := (Equiv.swap s t).injective
  reserved op := by
    have ne {name : String} (h : Operator.ofName? name = none) : op.name ≠ name := by
      intro same
      rw [Operator.ofName?_eq_some_iff.2 same] at h
      cases h
    exact Equiv.swap_apply_of_ne_of_ne (ne hs) (ne ht)
  verdict flag := Equiv.swap_apply_of_ne_of_ne (hs' flag) (ht' flag)

/-- In `((fn f (x) y) (let y x) (f 3) y)` the variable `y` stands for `x`, which is the parameter as
long as `f` is called.  With `x` and `y` exchanged it is the other way round. -/
theorem rename_of_captured_symbol :
    IsRenaming (Equiv.swap "x" "y") ∧
    (∃ m, eval 8 (.list [.list [.symbol "fn", .symbol "f", .list [.symbol "x"], .symbol "y"],
        .list [.symbol "let", .symbol "y", .symbol "x"], .list [.symbol "f", .number 3], .symbol "y"])
          (.start .default) = .ok (.value (.list [.number 3, .symbol "x"])) m) ∧
    ∃ m, eval 8 (.list [.list [.symbol "fn", .symbol "f", .list [.symbol "y"], .symbol "x"],
        .list [.symbol "let", .symbol "x", .symbol "y"], .list [.symbol "f", .number 3], .symbol "x"])
          (.start .default) = .ok (.value (.list [.number 3, .symbol "y"])) m := by
  have isRenaming : IsRenaming (Equiv.swap "x" "y") :=
    isRenaming_swap (by decide) (by decide) (by decide) (by decide)
  have plain : ∃ m, eval 8 (.list [.list [.symbol "fn", .symbol "f", .list [.symbol "x"], .symbol "y"],
      .list [.symbol "let", .symbol "y", .symbol "x"], .list [.symbol "f", .number 3], .symbol "y"])
        (.start .default) = .ok (.value (.list [.number 3, .symbol "x"])) m := ⟨_, rfl⟩
  have renamed := ((eval_rename isRenaming 8 .default _).1 _).2 plain
  refine ⟨isRenaming, plain, ?_⟩
  simpa [isRenaming.rename_default, Outcome.rename, Equiv.swap_apply_def] using renamed

end DynLisp
