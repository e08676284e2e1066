import Mathlib.Data.List.Basic
import Mathlib.Data.List.Induction
import DynLisp.Environment

/-! # Environments and their histories

What an environment says of a name is settled by the changes made so far: frames pushed and popped, and
names added to the innermost frame.

* `History.IsLive` holds for an addition whose frame has been there ever since: the depth has not
  dropped below the depth at which the addition was made.
* `Foremost` is the binding of the latest among the deepest of some additions.
* `History.records_step` says what one change does to every frame: each has, for a name, the foremost of
  the live additions made at its own depth.  `History.records_replay` is the induction over a history,
  and a look-up puts the frames together (`History.foremost_of_records`).
* Changes that push frames of their own and pop them again leave everything as it was
  (`Environment.replay_of_isBracketed`). -/

namespace DynLisp

/-! ### Changes -/

/-- A change of an environment. -/
inductive Change where
  /-- A frame without names becomes the innermost one. -/
  | push
  | pop
  /-- A name is given a binding, of a variable or of a function. -/
  | add (name : String) (b : Binding)

namespace Environment

/-- The environment with a change made. -/
def change (env : Environment) : Change → Except ScopeError Environment
  | .push => .ok (env.push .empty)
  | .pop => env.pop
  | .add name b => env.bind name b

/-- The environment after a change was tried. -/
def tried (env : Environment) (c : Change) : Environment :=
  match env.change c with
  | .ok env' => env'
  | .error _ => env

/-- The environment after some changes were tried one after the other. -/
def replay (env : Environment) (changes : List Change) : Environment :=
  changes.foldl tried env

theorem replay_append (env : Environment) (changes later : List Change) :
    env.replay (changes ++ later) = (env.replay changes).replay later :=
  List.foldl_append

/-- What cannot be done without a frame is popping and adding. -/
theorem change_eq_error_iff {env : Environment} {c : Change} {cause : ScopeError} :
    env.change c = .error cause ↔ env.size = 0 ∧
      (c = .pop ∧ cause = .nothingToPop ∨ (∃ name b, c = .add name b) ∧ cause = .nothingToAddTo) := by
  obtain ⟨frames⟩ := env
  cases frames <;> cases c <;> simp [change, pop, bind, size, eq_comm]

theorem tried_of_error {env : Environment} {c : Change} {cause : ScopeError}
    (h : env.change c = .error cause) : env.tried c = env := by
  rw [tried, h]

end Environment

/-! ### The latest among the deepest -/

/-- What the foremost of some additions binds, each given by its number, its depth and its binding: it
is the latest among the deepest.  Where there are no additions it is nothing. -/
def Foremost (additions : Nat → Nat → Binding → Prop) : Option Binding → Prop
  | some b => ∃ k d, additions k d b ∧
      ∀ k' d' b', additions k' d' b' → d' < d ∨ d' = d ∧ k' ≤ k
  | none => ∀ k d b, ¬ additions k d b

namespace Foremost

variable {A B : Nat → Nat → Binding → Prop} {x y : Option Binding}

theorem congr (same : ∀ k d b, A k d b ↔ B k d b) (h : Foremost A x) : Foremost B x := by
  have equal : A = B := funext fun k => funext fun d => funext fun b => propext (same k d b)
  exact equal ▸ h

/-- Where the additions of one kind are all deeper than those of another, they come first. -/
theorem or (deeper : ∀ {k d b k' d' b'}, A k d b → B k' d' b' → d' < d) (hA : Foremost A x)
    (hB : Foremost B y) : Foremost (fun k d b => A k d b ∨ B k d b) (x.or y) := by
  cases x with
  | some b =>
      obtain ⟨k, d, added, first⟩ := hA
      refine ⟨k, d, .inl added, fun k' d' b' other => ?_⟩
      exact other.elim (first k' d' b') fun other => .inl (deeper added other)
  | none => exact hB.congr fun k d b => (or_iff_right (hA k d b)).symm

/-- An addition that is latest and deepest comes first. -/
theorem insert {k d : Nat} {b : Binding} (first : ∀ k' d' b', A k' d' b' → d' < d ∨ d' = d ∧ k' ≤ k) :
    Foremost (fun k' d' b' => A k' d' b' ∨ k' = k ∧ d' = d ∧ b' = b) (some b) := by
  refine ⟨k, d, .inr ⟨rfl, rfl, rfl⟩, fun k' d' b' other => ?_⟩
  rcases other with other | ⟨rfl, rfl, -⟩
  · exact first k' d' b' other
  · exact .inr ⟨rfl, Nat.le_refl k'⟩

end Foremost

/-! ### Histories -/

/-- Changes of the empty environment, the first one first. -/
abbrev History := List Change

/-- The number of frames after a change where there were `n`; a change that fails changes nothing. -/
def Change.depthFrom (n : Nat) : Change → Nat
  | push => n + 1
  | pop => n - 1
  | add _ _ => n

namespace History

/-- The number of frames in the end. -/
def depth (h : History) : Nat :=
  h.foldl Change.depthFrom 0

/-- The number of frames before the change with the number `k`. -/
def depthAt (h : History) (k : Nat) : Nat :=
  depth (h.take k)

/-- The change with the number `k` is an addition of the name at depth `d`, where there is a frame, and
since then the depth has not dropped below `d`. -/
structure IsLive (h : History) (k d : Nat) (name : String) (b : Binding) : Prop where
  added : h[k]? = some (.add name b)
  made : depthAt h k = d
  frame : 0 < d
  kept : ∀ j, k ≤ j → j ≤ h.length → d ≤ depthAt h j

theorem depth_snoc (h : History) (c : Change) : depth (h ++ [c]) = c.depthFrom (depth h) := by
  simp [depth]

theorem depthAt_length (h : History) : depthAt h h.length = depth h := by
  rw [depthAt, List.take_length]

theorem depthAt_snoc_length (h : History) (c : Change) :
    depthAt (h ++ [c]) (h.length + 1) = depth (h ++ [c]) := by
  rw [← depthAt_length, List.length_append, List.length_singleton]

theorem depthAt_append {h : History} {k : Nat} (le : k ≤ h.length) (later : History) :
    depthAt (h ++ later) k = depthAt h k := by
  rw [depthAt, List.take_append_of_le_length le, depthAt]

variable {h : History} {c : Change} {k d : Nat} {name : String} {b : Binding}

theorem IsLive.lt_length (live : h.IsLive k d name b) : k < h.length :=
  (List.getElem?_eq_some_iff.1 live.added).1

theorem IsLive.le_depth (live : h.IsLive k d name b) : d ≤ depth h := by
  rw [← depthAt_length]
  exact live.kept h.length (Nat.le_of_lt live.lt_length) (Nat.le_refl _)

/-- The live additions after one more change: those from before whose frame is still there, and the
change itself if it is an addition to a frame. -/
theorem isLive_snoc_iff : (h ++ [c]).IsLive k d name b ↔
    h.IsLive k d name b ∧ d ≤ depth (h ++ [c]) ∨
      k = h.length ∧ d = depth h ∧ 0 < d ∧ c = .add name b := by
  have length : (h ++ [c]).length = h.length + 1 := by simp
  constructor
  · intro live
    rcases Nat.lt_succ_iff_lt_or_eq.1 (length ▸ live.lt_length) with before | rfl
    · refine .inl ⟨⟨?_, ?_, live.frame, fun j le le' => ?_⟩, live.le_depth⟩
      · rw [← live.added, List.getElem?_append_left before]
      · rw [← live.made, depthAt_append (Nat.le_of_lt before)]
      · rw [← depthAt_append le' [c]]
        exact live.kept j le (by omega)
    · have last := live.added
      rw [List.getElem?_concat_length] at last
      refine .inr ⟨rfl, ?_, live.frame, Option.some.inj last⟩
      rw [← live.made, depthAt_append (Nat.le_refl _), depthAt_length]
  · rintro (⟨live, within⟩ | ⟨rfl, rfl, frame, rfl⟩)
    · have before := live.lt_length
      refine ⟨?_, ?_, live.frame, fun j le le' => ?_⟩
      · rw [← live.added, List.getElem?_append_left before]
      · rw [← live.made, depthAt_append (Nat.le_of_lt before)]
      · rcases Nat.le_succ_iff.1 (length ▸ le') with le' | rfl
        · rw [depthAt_append le']
          exact live.kept j le le'
        · rw [depthAt_snoc_length]
          exact within
    · refine ⟨List.getElem?_concat_length, ?_, frame, fun j le le' => ?_⟩
      · rw [depthAt_append (Nat.le_refl _), depthAt_length]
      · rcases Nat.le_succ_iff.1 (length ▸ le') with le' | rfl
        · refine Nat.le_of_eq ?_
          rw [Nat.le_antisymm le' le, depthAt_append (Nat.le_refl _), depthAt_length]
        · rw [depthAt_snoc_length, depth_snoc]
          exact Nat.le_refl _

/-! ### What each frame has -/

/-- Each frame has, for every name, the foremost of the live additions made at its own depth; frames are
counted from the outermost one. -/
def Records (h : History) : List Frame → Prop
  | [] => True
  | f :: outer =>
    (∀ name, Foremost (fun k d b => h.IsLive k d name b ∧ d = outer.length + 1) (f.find? name)) ∧
      Records h outer

/-- A change that leaves the live additions at the depths of some frames leaves what these have. -/
theorem Records.snoc : ∀ {frames : List Frame}, h.Records frames →
    (∀ k d name b, d ≤ frames.length → ((h ++ [c]).IsLive k d name b ↔ h.IsLive k d name b)) →
      (h ++ [c]).Records frames
  | [], _, _ => trivial
  | f :: outer, records, same => by
      refine ⟨fun name => (records.1 name).congr fun k d b => ?_, records.2.snoc ?_⟩
      · exact and_congr_left fun depth => (same k d name b (Nat.le_of_eq depth)).symm
      · exact fun k d name b le => same k d name b (Nat.le_succ_of_le le)

/-- A change that is no addition leaves the live additions at the depths that there still are. -/
theorem isLive_snoc_of_le (within : d ≤ depth (h ++ [c])) (other : ∀ name b, c ≠ .add name b) :
    (h ++ [c]).IsLive k d name b ↔ h.IsLive k d name b := by
  rw [isLive_snoc_iff]
  simp [within, other]

/-- An addition is the foremost for its name in the innermost frame, and leaves the other names there. -/
theorem foremost_bind {f : Frame} {n : Nat} (size : depth h = n + 1) (added : String) (new : Binding)
    (records : ∀ name, Foremost (fun k d b => h.IsLive k d name b ∧ d = n + 1) (f.find? name))
    (name : String) :
    Foremost (fun k d b => (h ++ [Change.add added new]).IsLive k d name b ∧ d = n + 1)
      ((f.bind added new).find? name) := by
  have same : depth (h ++ [Change.add added new]) = n + 1 := by
    rw [depth_snoc, size]
    rfl
  rw [Frame.find?_bind]
  by_cases hn : name = added
  · subst hn
    rw [if_pos rfl]
    have last : Foremost (fun k d b => (h.IsLive k d name b ∧ d = n + 1) ∨
        k = h.length ∧ d = n + 1 ∧ b = new) (some new) :=
      Foremost.insert fun k d b live => .inr ⟨live.2, Nat.le_of_lt live.1.lt_length⟩
    refine last.congr fun k d b => ?_
    rw [isLive_snoc_iff, same, size, Change.add.injEq]
    constructor
    · rintro (⟨live, rfl⟩ | ⟨rfl, rfl, rfl⟩)
      · exact ⟨.inl ⟨live, Nat.le_refl _⟩, rfl⟩
      · exact ⟨.inr ⟨rfl, rfl, Nat.succ_pos n, rfl, rfl⟩, rfl⟩
    · rintro ⟨⟨live, -⟩ | ⟨rfl, -, -, -, rfl⟩, depth⟩
      · exact .inl ⟨live, depth⟩
      · exact .inr ⟨rfl, depth, rfl⟩
  · rw [if_neg hn]
    refine (records name).congr fun k d b => and_congr_left fun depth => ?_
    rw [isLive_snoc_iff, same]
    simp [depth, Ne.symm hn]

/-- One change: it leaves the number of frames that the history counts, and in each frame what the
history tells. -/
theorem records_step {env : Environment} (size : env.size = depth h) (records : h.Records env.frames)
    (c : Change) :
    (env.tried c).size = depth (h ++ [c]) ∧ (h ++ [c]).Records (env.tried c).frames := by
  obtain ⟨frames⟩ := env
  simp only [Environment.size] at size records
  cases c with
  | push =>
      have deeper : depth (h ++ [Change.push]) = frames.length + 1 := by
        rw [depth_snoc, ← size]
        rfl
      refine ⟨deeper.symm, ?_, records.snoc fun k d name b le => ?_⟩
      · -- nothing has been added at the depth of the new frame
        rintro name k d b ⟨live, rfl⟩
        rw [isLive_snoc_of_le (Nat.le_of_eq deeper.symm) (by simp)] at live
        exact absurd live.le_depth (by omega)
      · exact isLive_snoc_of_le (by omega) (by simp)
  | pop =>
      have shallower : depth (h ++ [Change.pop]) = frames.length - 1 := by
        rw [depth_snoc, ← size]
        rfl
      cases frames with
      | nil => exact ⟨shallower.symm, trivial⟩
      | cons f outer =>
          refine ⟨shallower.symm, records.2.snoc fun k d name b le => ?_⟩
          exact isLive_snoc_of_le (by rw [shallower]; exact le) (by simp)
  | add added binding =>
      have same : depth (h ++ [Change.add added binding]) = frames.length := by
        rw [depth_snoc, ← size]
        rfl
      cases frames with
      | nil => exact ⟨same.symm, trivial⟩
      | cons f outer =>
          refine ⟨same.symm, fun name => ?_, records.2.snoc fun k d name b le => ?_⟩
          · exact foremost_bind size.symm added binding records.1 name
          · -- the additions to the outer frames were made at other depths
            rw [isLive_snoc_iff, same, ← size]
            simp only [List.length_cons]
            constructor
            · rintro (⟨live, -⟩ | ⟨-, rfl, -⟩)
              · exact live
              · omega
            · exact fun live => .inl ⟨live, by omega⟩

/-- Whatever the history, the environment has the frames that it counts, and each frame what it tells. -/
theorem records_replay (h : History) : (Environment.empty.replay h).size = depth h ∧
    h.Records (Environment.empty.replay h).frames := by
  induction h using List.reverseRecOn with
  | nil => exact ⟨rfl, trivial⟩
  | append_singleton h c ih =>
      rw [Environment.replay_append]
      exact records_step ih.1 ih.2 c

/-- Looking a name up in some frames finds the foremost of the additions at their depths. -/
theorem foremost_of_records (name : String) : ∀ {frames : List Frame}, h.Records frames →
    Foremost (fun k d b => h.IsLive k d name b ∧ d ≤ frames.length) (frames.findSome? (·.find? name))
  | [], _ => by
      rintro k d b ⟨live, le⟩
      exact absurd live.frame (Nat.not_lt.2 le)
  | f :: outer, records => by
      have found : (f :: outer).findSome? (·.find? name) =
          (f.find? name).or (outer.findSome? (·.find? name)) := by
        cases first : f.find? name <;> simp [first]
      rw [found]
      refine (Foremost.or ?_ (records.1 name) (foremost_of_records name records.2)).congr ?_
      · rintro k d b k' d' b' ⟨-, rfl⟩ ⟨-, le⟩
        exact Nat.lt_succ_of_le le
      · intro k d b
        rw [← and_or_left, List.length_cons, Nat.le_succ_iff, or_comm]

/-- A look-up finds the foremost of the live additions, whatever the history. -/
theorem foremost_lookup_replay (h : History) (name : String) :
    Foremost (fun k d b => h.IsLive k d name b) ((Environment.empty.replay h).lookup name) := by
  obtain ⟨size, records⟩ := records_replay h
  refine (foremost_of_records name records).congr fun k d b => and_iff_left_of_imp fun live => ?_
  exact Nat.le_trans live.le_depth (Nat.le_of_eq size.symm)

/-- What was added to a frame that is gone is not found in another one at the same depth. -/
example : (Environment.empty.replay
    [.push, .add "x" (.ofValue (.number 1)), .pop, .push]).lookup "x" = none := rfl

end History

/-! ### Changes that take themselves back -/

/-- The changes push and pop in pairs and add to frames of their own only, if `own` of the frames are
their own from the beginning. -/
def isBracketed : Nat → List Change → Bool
  | own, [] => own == 0
  | own, .push :: rest => isBracketed (own + 1) rest
  | own, .pop :: rest => own != 0 && isBracketed (own - 1) rest
  | own, .add _ _ :: rest => own != 0 && isBracketed own rest

/-- Whatever frames of their own such changes meet, in the end only the frames below are left. -/
theorem Environment.replay_inner_of_isBracketed (outer : List Frame) :
    ∀ (changes : List Change) (inner : List Frame), isBracketed inner.length changes →
      replay ⟨inner ++ outer⟩ changes = ⟨outer⟩
  | [], inner, h => by
      have none : inner = [] := List.eq_nil_of_length_eq_zero (by simpa [isBracketed] using h)
      rw [none]
      rfl
  | .push :: rest, inner, h => replay_inner_of_isBracketed outer rest (.empty :: inner) h
  | .pop :: rest, inner, h => by
      simp only [isBracketed, Bool.and_eq_true, bne_iff_ne] at h
      obtain ⟨f, inner, rfl⟩ := List.exists_cons_of_length_pos (Nat.pos_of_ne_zero h.1)
      exact replay_inner_of_isBracketed outer rest inner h.2
  | .add name b :: rest, inner, h => by
      simp only [isBracketed, Bool.and_eq_true, bne_iff_ne] at h
      obtain ⟨f, inner, rfl⟩ := List.exists_cons_of_length_pos (Nat.pos_of_ne_zero h.1)
      exact replay_inner_of_isBracketed outer rest (f.bind name b :: inner) h.2

theorem Environment.replay_of_isBracketed (env : Environment) {changes : List Change}
    (h : isBracketed 0 changes) : env.replay changes = env :=
  replay_inner_of_isBracketed env.frames changes [] h

/-! ### Beginnings -/

/-- How an environment begins. -/
inductive Origin where
  | empty
  | default
  /-- With one frame of variables. -/
  | ofValues (pairs : List (String × Expr))

/-- A frame with some additions to it. -/
def History.opening (additions : List (String × Binding)) : History :=
  .push :: additions.map fun entry => .add entry.1 entry.2

namespace Origin

def environment : Origin → Environment
  | empty => .empty
  | default => .default
  | ofValues pairs => .ofValues pairs

/-- The changes that lead to the beginning. -/
def seeds : Origin → History
  | empty => []
  | default => .opening Environment.verdictFrame.entries
  | ofValues pairs => .opening (pairs.map fun pair => (pair.1, .ofValue pair.2))

theorem replay_additions (pairs : List (String × Expr)) : ∀ f : Frame,
    Environment.replay ⟨[f]⟩ (pairs.map fun pair => .add pair.1 (.ofValue pair.2)) =
      ⟨[pairs.foldl (fun f pair => f.bind pair.1 (.ofValue pair.2)) f]⟩ := by
  induction pairs with
  | nil => exact fun f => rfl
  | cons pair rest ih => exact fun f => ih (f.bind pair.1 (.ofValue pair.2))

theorem replay_seeds (o : Origin) : Environment.empty.replay o.seeds = o.environment := by
  cases o with
  | empty => rfl
  | default => rfl
  | ofValues pairs =>
      rw [seeds, History.opening, List.map_map]
      exact replay_additions pairs .empty

theorem replay_eq (o : Origin) (changes : List Change) :
    o.environment.replay changes = Environment.empty.replay (o.seeds ++ changes) := by
  rw [Environment.replay_append, replay_seeds]

end Origin

/-- All additions to the frame are made at depth one. -/
theorem History.depthAt_opening {additions : List (String × Binding)} {k : Nat} {name : String}
    {b : Binding} (h : (opening additions)[k]? = some (.add name b)) :
    depthAt (opening additions) k = 1 := by
  cases k with
  | zero => cases h
  | succ k =>
      rw [depthAt, opening, List.take_succ_cons, ← List.map_take, depth, List.foldl_cons,
        List.foldl_map]
      exact List.foldl_fixed _

theorem Origin.depthAt_seeds (o : Origin) {k : Nat} {name : String} {b : Binding}
    (h : o.seeds[k]? = some (.add name b)) : o.seeds.depthAt k = 1 := by
  cases o with
  | empty => cases h
  | default => exact History.depthAt_opening h
  | ofValues pairs => exact History.depthAt_opening h

/-- **Environments agree with their histories.**  However an environment begins and whatever changes are
tried, with its beginning counted as additions at depth one: a look-up finds the foremost of the live
additions of the name, and a name is contained exactly if a look-up finds it; the environment has as
many frames as were pushed and not popped; what fails is to pop and to add where there is no frame, and
it changes nothing; and changes that take back their own frames and add to these only are as if they
had not been. -/
theorem Environment.replay_agrees_with_history (o : Origin) (changes : List Change) :
    let env := o.environment.replay changes
    let h : History := o.seeds ++ changes
    (∀ k name b, o.seeds[k]? = some (.add name b) → h.depthAt k = 1) ∧
    (∀ name, Foremost (fun k d b => h.IsLive k d name b) (env.lookup name)) ∧
    (∀ name, env.contains name ↔ env.lookup name ≠ none) ∧
    env.size = h.depth ∧
    (∀ c cause, env.change c = .error cause ↔ h.depth = 0 ∧
      (c = .pop ∧ cause = .nothingToPop ∨ (∃ name b, c = .add name b) ∧ cause = .nothingToAddTo)) ∧
    (∀ c cause, env.change c = .error cause → env.tried c = env) ∧
    (∀ bracketed, isBracketed 0 bracketed →
      o.environment.replay (changes ++ bracketed) = env) := by
  intro env h
  have replayed : env = empty.replay h := o.replay_eq changes
  have size : env.size = h.depth := by
    rw [replayed]
    exact (History.records_replay h).1
  refine ⟨fun k name b seed => ?_, fun name => ?_, fun name => ?_, size, fun c cause => ?_,
    fun c cause => tried_of_error, fun bracketed own => ?_⟩
  · have within := (List.getElem?_eq_some_iff.1 seed).1
    rw [History.depthAt_append (Nat.le_of_lt within)]
    exact o.depthAt_seeds seed
  · rw [replayed]
    exact History.foremost_lookup_replay h name
  · rw [contains_eq_isSome_lookup, Option.isSome_iff_ne_none]
  · rw [← size]
    exact change_eq_error_iff
  · rw [replay_append, replay_of_isBracketed _ own]

/-- The verdicts' additions are seeds at depth one, a second pop fails, and a frame that is pushed,
added to and popped again is as if it had not been. -/
theorem Environment.history_of_shadowed_variable :
    (Origin.default.seeds[1]? = some (.add "False" (.ofValue (.list []))) ∧
      History.depthAt (Origin.default.seeds ++ [.push, .pop]) 1 = 1) ∧
    ((Origin.empty.environment.replay [.pop]).change .pop = .error .nothingToPop ∧
      (Origin.empty.environment.replay [.pop]).tried .pop = Origin.empty.environment.replay [.pop]) ∧
    isBracketed 0 [.push, .add "x" (.ofValue (.number 2)), .pop] ∧
    (Origin.ofValues [("x", .number 1)]).environment.replay
        ([.push] ++ [.push, .add "x" (.ofValue (.number 2)), .pop]) =
      (Origin.ofValues [("x", .number 1)]).environment.replay [.push] := by
  have seed : Origin.default.seeds[1]? = some (.add "False" (.ofValue (.list []))) := rfl
  have failed : (Origin.empty.environment.replay [.pop]).change .pop = .error .nothingToPop := rfl
  have own : isBracketed 0 [.push, .add "x" (.ofValue (.number 2)), .pop] := rfl
  obtain ⟨seeds, -⟩ := replay_agrees_with_history .default [.push, .pop]
  obtain ⟨-, -, -, -, -, unchanged, -⟩ := replay_agrees_with_history .empty [.pop]
  obtain ⟨-, -, -, -, -, -, restored⟩ := replay_agrees_with_history (.ofValues [("x", .number 1)]) [.push]
  exact ⟨⟨seed, seeds 1 _ _ seed⟩, ⟨failed, unchanged _ _ failed⟩, own, restored _ own⟩

end DynLisp
