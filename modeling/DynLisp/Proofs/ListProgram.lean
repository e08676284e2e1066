import Mathlib.Data.List.Forall2
import DynLisp.Proofs.Allowance
import DynLisp.Proofs.ReadBack

/-! # Programs in one list

A list of programs, written as one program, does what the programs do one after the other until the
first error, and gives their values in a list.

* `untilError` takes steps one after the other until one ends in an error, and `Joins` says what one
  report has to say to stand for all of them.
* `joins_items` is the induction on the items of a list.  An item is evaluated on a machine on which
  the items before it have printed, and a program on a new one, which makes no difference
  (`Eval.Approximates.prepend_start`).
* `writtenAs_listProgram`: the text of the list is split and read as the list of what the texts are
  split and read as.
* The items have one nested evaluation less than the programs, which makes no difference either as
  long as they are enough (`evaluateWithin_of_le`). -/

namespace DynLisp

/-! ### Several reports as one -/

/-- A report without what is noted in it. -/
def Report.withoutNotes (r : Report) : Report :=
  { r with notes := [] }

theorem Report.withoutNotes_eq_iff {r s : Report} : r.withoutNotes = s.withoutNotes ↔
    r.result = s.result ∧ r.env = s.env ∧ r.printed = s.printed := by
  simp [withoutNotes]

/-- The value that a run gives. -/
def Result.value? : Result → Option Expr
  | .value e => some e
  | _ => none

namespace Session

/-- The reports on steps that are taken one after the other until one ends in an error; each begins
with the environment that the one before has left. -/
def untilError {α : Type} (step : Environment → α → Report) (env : Environment) :
    List α → List Report
  | [] => []
  | a :: rest =>
    let r := step env a
    match r.result with
    | .error _ => [r]
    | _ => r :: untilError step r.env rest

/-- The reports on programs that run one after the other until one ends in an error. -/
def runUntilError (allowed : Allowance) (env : Environment) (programs : List String) : List Report :=
  untilError (run allowed) env programs

/-- One report that says what several say together: all that was printed, the environment left at the
end, and the values in order or else the error. -/
structure Joins (env : Environment) (rs : List Report) (r : Report) : Prop where
  printed : r.printed = rs.flatMap (·.printed)
  env : r.env = (rs.getLast?.map (·.env)).getD env
  values : (∀ s ∈ rs, ∀ cause, s.result ≠ .error cause) →
    r.result = .value (.list (rs.filterMap (·.result.value?)))
  error : ∀ s ∈ rs, ∀ cause, s.result = .error cause → r.result = .error cause

section
variable {α : Type} {step : Environment → α → Report} {env : Environment} {a : α}

theorem untilError_of_error {cause : ProgramError} (h : (step env a).result = .error cause)
    (rest : List α) : untilError step env (a :: rest) = [step env a] := by
  simp only [untilError, h]

theorem untilError_of_not_error (h : ∀ cause, (step env a).result ≠ .error cause) (rest : List α) :
    untilError step env (a :: rest) = step env a :: untilError step (step env a).env rest := by
  simp only [untilError]

theorem first_mem_untilError (rest : List α) : step env a ∈ untilError step env (a :: rest) := by
  simp only [untilError]
  split <;> simp

/-- Steps that report the same but for the notes, as long as none ends for want of nested calls. -/
theorem untilError_congr {β : Type} {step' : Environment → β → Report} :
    ∀ {as : List α} {bs : List β} (env : Environment),
      List.Forall₂ (fun a b => ∀ env, ¬ (step env a).result.TooDeep →
        (step' env b).withoutNotes = (step env a).withoutNotes) as bs →
      (∀ r ∈ untilError step env as, ¬ r.result.TooDeep) →
        (untilError step' env bs).map Report.withoutNotes =
          (untilError step env as).map Report.withoutNotes
  | _, _, _, .nil, _ => rfl
  | _, _, env, @List.Forall₂.cons _ _ _ a b as bs same others, enough => by
      have equal := same env (enough _ (first_mem_untilError as))
      obtain ⟨result, left, -⟩ := Report.withoutNotes_eq_iff.1 equal
      cases h : (step env a).result with
      | error cause =>
          rw [untilError_of_error h, untilError_of_error (result.trans h), List.map_singleton,
            List.map_singleton, equal]
      | _ =>
          have fine : ∀ cause, (step env a).result ≠ .error cause := by simp [h]
          rw [untilError_of_not_error fine] at enough ⊢
          rw [untilError_of_not_error (result ▸ fine), left, List.map_cons, List.map_cons, equal]
          have further := untilError_congr (step env a).env others fun r hr => enough r (by simp [hr])
          rw [further]

end

theorem joins_withoutNotes {env : Environment} {rs : List Report} {r : Report} :
    Joins env (rs.map Report.withoutNotes) r.withoutNotes ↔ Joins env rs r := by
  have rephrased (rs : List Report) (r : Report) : Joins env rs r ↔
      r.printed = rs.flatMap (·.printed) ∧ r.env = (rs.getLast?.map (·.env)).getD env ∧
      ((∀ s ∈ rs, ∀ cause, s.result ≠ .error cause) →
        r.result = .value (.list (rs.filterMap (·.result.value?)))) ∧
      ∀ s ∈ rs, ∀ cause, s.result = .error cause → r.result = .error cause :=
    ⟨fun h => ⟨h.printed, h.env, h.values, h.error⟩, fun ⟨p, e, v, c⟩ => ⟨p, e, v, c⟩⟩
  rw [rephrased, rephrased]
  simp only [List.flatMap_map, List.getLast?_map, Option.map_map, List.forall_mem_map,
    List.filterMap_map, Function.comp_def, Report.withoutNotes]

theorem joins_congr {env : Environment} {rs rs' : List Report} {r r' : Report}
    (hs : rs'.map Report.withoutNotes = rs.map Report.withoutNotes)
    (hr : r'.withoutNotes = r.withoutNotes) (h : Joins env rs r) : Joins env rs' r' := by
  rw [← joins_withoutNotes, hs, hr, joins_withoutNotes]
  exact h

theorem joins_nil (env : Environment) : Joins env [] ⟨.value (.list []), env, [], []⟩ :=
  ⟨rfl, rfl, fun _ => rfl, fun _ h => by cases h⟩

theorem joins_failed (env : Environment) {r : Report} {cause : ProgramError}
    (h : r.result = .error cause) : Joins env [r] r where
  printed := by simp
  env := by simp
  values fine := absurd h (fine r (by simp) cause)
  error s hs other failed := by
    obtain rfl := List.mem_singleton.1 hs
    exact failed

theorem joins_cons {env : Environment} {s r r' : Report} {rs : List Report}
    (fine : ∀ cause, s.result ≠ .error cause) (h : Joins s.env rs r)
    (printed : r'.printed = s.printed ++ r.printed) (left : r'.env = r.env)
    (failed : ∀ cause, r.result = .error cause → r'.result = .error cause)
    (given : ∀ vs, r.result = .value (.list vs) →
      r'.result = .value (.list (s.result.value?.toList ++ vs))) :
    Joins env (s :: rs) r' where
  printed := by rw [printed, h.printed, List.flatMap_cons]
  env := by
    rw [left, h.env, List.getLast?_cons]
    cases rs.getLast? <;> rfl
  values all := by
    rw [List.forall_mem_cons] at all
    rw [given _ (h.values all.2), List.filterMap_cons]
    cases s.result.value? <;> rfl
  error t ht cause ended := by
    rcases List.mem_cons.1 ht with rfl | ht
    · exact absurd ended (fine cause)
    · exact failed cause (h.error t ht cause ended)

theorem Joins.tooDeep {env : Environment} {s r : Report} {rs : List Report} (h : Joins env rs r)
    (hs : s ∈ rs) (deep : s.result.TooDeep) : r.result.TooDeep :=
  deep.imp (h.error s hs _) (h.error s hs _)

end Session

/-! ### Evaluating the items of a list -/

/-- The report on an evaluation that has ended, without notes. -/
def Report.ofEvaluation : EStateM.Result Failure Machine Outcome → Report
  | .ok outcome m => ⟨.ofOutcome outcome, m.env, m.printed.toList, []⟩
  | .error failure m => ⟨.ofFailure failure, m.env, m.printed.toList, []⟩

theorem Rule.values_cons (outcome : Outcome) (outcomes : List Outcome) :
    values (outcome :: outcomes) = (Result.ofOutcome outcome).value?.toList ++ values outcomes := by
  cases outcome <;> rfl

theorem Rule.items_of_ok {ev : Evaluator} {es : List Expr} {m m' : Machine}
    {outcomes : List Outcome} (h : es.mapM ev m = .ok outcomes m') :
    items ev es m = .ok (.value (.list (values outcomes))) m' := by
  rw [items, Eval.bind_of_ok h]
  rfl

theorem Rule.items_of_error {ev : Evaluator} {es : List Expr} {m m' : Machine} {failure : Failure}
    (h : es.mapM ev m = .error failure m') : items ev es m = .error failure m' := by
  rw [items, Eval.bind_of_error h]

namespace Session

/-- Evaluates an expression by at most `d` nested evaluations. -/
def evaluateWithin (d : Nat) (env : Environment) (e : Expr) : Report :=
  .ofEvaluation (eval d e (.start env))

/-- The first item of a list, with the others evaluated where it has ended. -/
theorem joins_first_item {d : Nat} {e : Expr} {es : List Expr} {env : Environment}
    {outcome : Outcome} {m : Machine} {rs : List Report}
    (h : eval d e (.start env) = .ok outcome m)
    (others : Joins m.env rs (.ofEvaluation (Rule.items (eval d) es (.start m.env)))) :
    Joins env (evaluateWithin d env e :: rs)
      (.ofEvaluation (Rule.items (eval d) (e :: es) (.start env))) := by
  have reported : evaluateWithin d env e = .ofEvaluation (.ok outcome m) := by
    rw [evaluateWithin, h]
  have fine : ∀ cause, (Report.ofEvaluation (.ok outcome m)).result ≠ .error cause := by
    cases outcome <;> simp [Report.ofEvaluation, Result.ofOutcome]
  -- the other items meet the machine of the first, and `others` speaks of a new one
  have threaded := (Eval.approximates_mapM (eval_approximates_self d) es).prepend_start m
  have mapped : (e :: es).mapM (eval d) (.start env) =
      (es.mapM (eval d) >>= fun outcomes => pure (outcome :: outcomes)) m := by
    rw [List.mapM_cons]
    exact Eval.bind_of_ok h
  rw [reported]
  cases rest : es.mapM (eval d) (.start m.env) with
  | ok outcomes m' =>
      rw [rest] at threaded
      rw [Eval.bind_of_ok threaded] at mapped
      rw [Rule.items_of_ok rest] at others
      rw [Rule.items_of_ok mapped, Rule.values_cons]
      refine joins_cons fine others Array.toList_append rfl ?_ ?_
      · intro cause failed
        cases failed
      · intro vs given
        cases given
        rfl
  | error failure m' =>
      rw [rest] at threaded
      rw [Eval.bind_of_error threaded] at mapped
      rw [Rule.items_of_error rest] at others
      rw [Rule.items_of_error mapped]
      refine joins_cons fine others Array.toList_append rfl ?_ ?_
      · intro cause failed
        exact failed
      · intro vs given
        cases failure <;> cases given

/-- The items of a list are evaluated one after the other until one ends in an error. -/
theorem joins_items (d : Nat) : ∀ (es : List Expr) (env : Environment),
    Joins env (untilError (evaluateWithin d) env es)
      (.ofEvaluation (Rule.items (eval d) es (.start env)))
  | [], env => joins_nil env
  | e :: es, env => by
      cases h : eval d e (.start env) with
      | error failure m =>
          have reported : evaluateWithin d env e = .ofEvaluation (.error failure m) := by
            rw [evaluateWithin, h]
          have ended : ∃ cause, (evaluateWithin d env e).result = .error cause := by
            rw [reported]
            cases failure <;> exact ⟨_, rfl⟩
          obtain ⟨cause, ended⟩ := ended
          have mapped : (e :: es).mapM (eval d) (.start env) = .error failure m := by
            rw [List.mapM_cons]
            exact Eval.bind_of_error h
          rw [untilError_of_error ended, Rule.items_of_error mapped, ← reported]
          exact joins_failed env ended
      | ok outcome m =>
          have reported : evaluateWithin d env e = .ofEvaluation (.ok outcome m) := by
            rw [evaluateWithin, h]
          have fine : ∀ cause, (evaluateWithin d env e).result ≠ .error cause := by
            rw [reported]
            cases outcome <;> simp [Report.ofEvaluation, Result.ofOutcome]
          have left : (evaluateWithin d env e).env = m.env := by
            rw [reported]
            rfl
          rw [untilError_of_not_error fine, left]
          exact joins_first_item h (joins_items d es m.env)

theorem withoutNotes_evaluate (allowed : Allowance) (env : Environment) (e : Expr) :
    (evaluate allowed env e).withoutNotes =
      (evaluateWithin allowed.evaluations env e).withoutNotes := by
  unfold evaluate evaluateWithin
  cases eval allowed.evaluations e (.start env) <;> rfl

/-- An evaluation stays as it is with more nested ones, unless they were not enough. -/
theorem evaluateWithin_of_le {d d' : Nat} (h : d ≤ d') {env : Environment} {e : Expr}
    (enough : ¬ (evaluateWithin d env e).result.TooDeep) :
    evaluateWithin d' env e = evaluateWithin d env e := by
  rcases eval_of_le h e (.start env) with same | ⟨m', ended, -⟩
  · simp only [evaluateWithin, same]
  · refine absurd (.inr ?_) enough
    simp only [evaluateWithin, ended]
    rfl

end Session

theorem Environment.form_items {env : Environment} {es : List Expr} (ne : es ≠ [])
    (free : ∀ name, es.head? = some (.symbol name) →
      Operator.ofName? name = none ∧ env.contains name = false) :
    env.form (.list es) = .items es := by
  match es with
  | [] => exact absurd rfl ne
  | .number x :: rest => rfl
  | .list items :: rest => rfl
  | .symbol name :: rest =>
      obtain ⟨unreserved, unbound⟩ := free name rfl
      simp [form, unreserved, unbound]

theorem eval_items {d : Nat} {es : List Expr} {m : Machine} (ne : es ≠ [])
    (free : ∀ name, es.head? = some (.symbol name) →
      Operator.ofName? name = none ∧ m.env.contains name = false) :
    eval (d + 1) (.list es) m = Rule.items (eval d) es m := by
  show (m.env.form (.list es)).run d (eval d) m = _
  rw [Environment.form_items ne free]
  rfl

/-! ### The text of a list -/

namespace Expr

/-- Tokens that begin with a spelling are read as its expression. -/
theorem parseRoot_of_spells {limit : Nat} {e : Expr} {used ts : List Token} (h : Spells e used)
    (cut : used <+: ts) (nested : e.nesting ≤ limit) :
    parseRoot limit ts = .ok (e, ts.length - used.length) := by
  obtain ⟨rest, rfl⟩ := cut
  exact parseRoot_eq_ok_iff.2 ⟨used, rest, rfl, h, nested, by simp⟩

/-- Only too small a limit keeps them from being read, whatever follows. -/
theorem parseRoot_of_deep {limit : Nat} {e : Expr} {used ts : List Token} (h : Spells e used)
    (cut : used <+: ts) (deep : limit < e.nesting) :
    parseRoot limit ts = .error .nestedTooDeeply := by
  by_contra room
  have parsed := parseRoot_of_spells h cut (Nat.le_refl _)
  rw [parseRoot_of_le (Nat.le_of_lt deep) room] at parsed
  obtain ⟨-, -, -, -, nested, -⟩ := parseRoot_eq_ok_iff.1 parsed
  omega

end Expr

/-- The text is split into tokens and read as the expression, and no token is left. -/
def Expr.WrittenAs (e : Expr) (s : String) : Prop :=
  ∃ limit ts, Token.tokenize s = .ok ts ∧ Expr.parseRoot limit ts = .ok (e, 0)

theorem Expr.writtenAs_iff {e : Expr} {s : String} :
    e.WrittenAs s ↔ ∃ ts, Token.tokenize s = .ok ts ∧ Spells e ts := by
  constructor
  · rintro ⟨limit, ts, lexed, parsed⟩
    obtain ⟨used, rest, rfl, spelled, -, none⟩ := parseRoot_eq_ok_iff.1 parsed
    obtain rfl := List.eq_nil_of_length_eq_zero none.symm
    exact ⟨_, lexed, (List.append_nil used).symm ▸ spelled⟩
  · rintro ⟨ts, lexed, spelled⟩
    exact ⟨e.nesting, ts, lexed,
      parseRoot_eq_ok_iff.2 ⟨ts, [], by simp, spelled, Nat.le_refl _, rfl⟩⟩

/-- Source forms write what they are the source forms of. -/
theorem writtenAs_sources : ∀ {es : List Expr} {programs : List String}, (∀ e ∈ es, e.Writable) →
    es.map Expr.source = programs → List.Forall₂ Expr.WrittenAs es programs
  | [], _, _, rfl => .nil
  | e :: es, _, h, rfl => by
      rw [List.forall_mem_cons] at h
      obtain ⟨ts, lexed, parsed⟩ := Expr.exists_tokens_of_source h.1
      exact .cons ⟨e.nesting, ts, lexed, parsed _ (Nat.le_refl _)⟩ (writtenAs_sources h.2 rfl)

/-- The program that is the list of some programs. -/
def listProgram (programs : List String) : String :=
  "(" ++ " ".intercalate programs ++ ")"

/-- Programs with single spaces between them and a closing parenthesis after them are split into
spellings of what they write, and the parenthesis. -/
theorem lexFrom_programs {es : List Expr} {programs : List String}
    (h : List.Forall₂ Expr.WrittenAs es programs) : ∃ ts, Expr.SpellsItems es ts ∧
      ∀ offset tokens, Token.lexFrom offset [] tokens ((" ".intercalate programs).toList ++ [')']) =
        (tokens.reverse ++ ts ++ [.closing], none) := by
  induction h with
  | nil =>
      refine ⟨[], .nil, fun offset tokens => ?_⟩
      simp [Token.lexFrom, Token.flush_nil, Token.isBlank_closing]
  | @cons e program es programs written others ih =>
      obtain ⟨ts, lexed, spelled⟩ := Expr.writtenAs_iff.1 written
      have split := Token.tokenize_eq_ok_iff_lexFrom.1 lexed
      obtain ⟨us, spelledOthers, splitOthers⟩ := ih
      refine ⟨ts ++ us, .cons spelled spelledOthers, fun offset tokens => ?_⟩
      -- the program is followed by the parenthesis or by a space, which both end its last token
      cases others with
      | nil =>
          have ends : Token.endsLiteral ')' := by decide
          have chars : (" ".intercalate [program]).toList ++ [')'] = program.toList ++ [')'] := by simp
          have rest := splitOthers (offset + program.toList.length) (ts.reverse ++ tokens)
          simp only [String.intercalate_nil, String.toList_empty, List.nil_append] at rest
          rw [chars, ← List.nil_append tokens, Token.lexFrom_append ends [] tokens offset split, rest]
          simp
      | @cons _ next _ rest _ _ =>
          have ends : Token.endsLiteral ' ' := by decide
          have blank : Text.isBlank ' ' := by decide
          have chars : (" ".intercalate (program :: next :: rest)).toList ++ [')'] =
              program.toList ++ ' ' :: ((" ".intercalate (next :: rest)).toList ++ [')']) := by
            simp [String.toList_intercalate]
          rw [chars, ← List.nil_append tokens, Token.lexFrom_append ends _ tokens offset split,
            Token.lexFrom, if_pos blank, Token.flush_nil, splitOthers]
          simp

/-- The list of some programs writes the list of what they write. -/
theorem writtenAs_listProgram {es : List Expr} {programs : List String}
    (h : List.Forall₂ Expr.WrittenAs es programs) : (Expr.list es).WrittenAs (listProgram programs) := by
  obtain ⟨ts, spelled, split⟩ := lexFrom_programs h
  refine Expr.writtenAs_iff.2 ⟨.opening :: (ts ++ [.closing]), ?_, .list rfl spelled rfl⟩
  have chars : (listProgram programs).toList =
      '(' :: ((" ".intercalate programs).toList ++ [')']) := by
    simp [listProgram]
  rw [Token.tokenize_eq_ok_iff_lexFrom, chars, Token.lexFrom, Token.isBlank_opening,
    if_neg Bool.false_ne_true, if_pos rfl, split]
  rfl

namespace Session

section
variable {allowed : Allowance} {d : Nat} {e : Expr} {program : String} (h : e.WrittenAs program)

include h

theorem run_of_writtenAs (nested : e.nesting ≤ allowed.lists) (env : Environment) :
    (run allowed env program).withoutNotes =
      (evaluateWithin allowed.evaluations env e).withoutNotes := by
  obtain ⟨ts, lexed, spelled⟩ := Expr.writtenAs_iff.1 h
  have parsed : Expr.parseRoot allowed.lists ts = .ok (e, 0) :=
    Expr.parseRoot_eq_ok_iff.2 ⟨ts, [], by simp, spelled, nested, rfl⟩
  obtain ⟨notes, same⟩ := run_of_parseRoot env lexed parsed
  rw [same, ← withoutNotes_evaluate]
  rfl

/-- A program runs as its expression is evaluated by fewer nested evaluations, if these are enough. -/
theorem run_of_evaluateWithin (nested : e.nesting ≤ allowed.lists) (le : d ≤ allowed.evaluations)
    {env : Environment} (enough : ¬ (evaluateWithin d env e).result.TooDeep) :
    (run allowed env program).withoutNotes = (evaluateWithin d env e).withoutNotes := by
  rw [run_of_writtenAs h nested, evaluateWithin_of_le le enough]

/-- Only too small an allowance keeps a program from being read. -/
theorem nesting_le_of_not_tooDeep {env : Environment}
    (enough : ¬ (run allowed env program).result.TooDeep) : e.nesting ≤ allowed.lists := by
  obtain ⟨ts, lexed, spelled⟩ := Expr.writtenAs_iff.1 h
  by_contra deep
  have parsed := Expr.parseRoot_of_deep spelled List.prefix_rfl (Nat.lt_of_not_le deep)
  apply enough
  rw [run, lexed]
  simp only [parsed]
  exact .inl rfl

/-- An expression is evaluated by more nested evaluations as its program runs, if that has enough. -/
theorem evaluateWithin_of_run (le : allowed.evaluations ≤ d) {env : Environment}
    (enough : ¬ (run allowed env program).result.TooDeep) :
    (evaluateWithin d env e).withoutNotes = (run allowed env program).withoutNotes := by
  have same := run_of_writtenAs h (nesting_le_of_not_tooDeep h enough) env
  have result := (Report.withoutNotes_eq_iff.1 same).1
  rw [same, evaluateWithin_of_le le (result ▸ enough)]

end

/-- A list of items takes one nested evaluation more than the items. -/
theorem joins_evaluateWithin {env : Environment} {es : List Expr} (ne : es ≠ [])
    (free : ∀ name, es.head? = some (.symbol name) →
      Operator.ofName? name = none ∧ env.contains name = false) (d : Nat) :
    Joins env (untilError (evaluateWithin d) env es) (evaluateWithin (d + 1) env (.list es)) := by
  have rule : eval (d + 1) (.list es) (.start env) = Rule.items (eval d) es (.start env) :=
    eval_items ne free
  rw [evaluateWithin, rule]
  exact joins_items d es env

theorem nesting_list_le {es : List Expr} {n : Nat} (positive : 0 < n)
    (h : ∀ e ∈ es, e.nesting < n) : (Expr.list es).nesting ≤ n := by
  have items : Expr.nestingOfItems es ≤ n - 1 :=
    Expr.nestingOfItems_le_iff.2 fun e he => Nat.le_sub_one_of_lt (h e he)
  rw [Expr.nesting_list]
  omega

section
variable {env : Environment} {es : List Expr} {programs : List String} (ne : es ≠ [])
  (written : List.Forall₂ Expr.WrittenAs es programs)
  (free : ∀ name, es.head? = some (.symbol name) →
    Operator.ofName? name = none ∧ env.contains name = false)

include ne written free

/-- Where the nested calls are enough for the list, they are enough for the programs. -/
theorem joins_of_enough_for_list {allowed : Allowance}
    (enough : ¬ (run allowed env (listProgram programs)).result.TooDeep) :
    Joins env (runUntilError allowed env programs) (run allowed env (listProgram programs)) := by
  have whole := writtenAs_listProgram written
  have nested := nesting_le_of_not_tooDeep whole enough
  have same := run_of_writtenAs whole nested env
  have result := (Report.withoutNotes_eq_iff.1 same).1
  cases hd : allowed.evaluations with
  | zero =>
      rw [hd] at result
      exact absurd (.inr result) enough
  | succ d =>
      rw [hd] at same result
      -- the list has one nested evaluation more than its items, and the programs have that one too
      have joined := joins_evaluateWithin ne free d
      have enoughEach : ∀ r ∈ untilError (evaluateWithin d) env es, ¬ r.result.TooDeep :=
        fun r hr deep => enough (result ▸ joined.tooDeep hr deep)
      have inside : ∀ e ∈ es, e.nesting ≤ allowed.lists := by
        intro e he
        have := Expr.nesting_le_nestingOfItems he
        rw [Expr.nesting_list] at nested
        omega
      have fewer : d ≤ allowed.evaluations := by omega
      have each : List.Forall₂ (fun e program => ∀ env, ¬ (evaluateWithin d env e).result.TooDeep →
          (run allowed env program).withoutNotes =
            (evaluateWithin d env e).withoutNotes) es programs :=
        ((List.forall₂_and_left _ _).2 ⟨inside, written⟩).imp
          fun e program h _ => run_of_evaluateWithin h.2 h.1 fewer
      exact joins_congr (untilError_congr env each enoughEach) same joined

/-- Where they are enough for the programs, a little more is enough for the list. -/
theorem joins_of_enough_for_programs {fewer more : Allowance}
    (enough : ∀ r ∈ runUntilError fewer env programs, ¬ r.result.TooDeep)
    (one : fewer.evaluations < more.evaluations) (nested : ∀ e ∈ es, e.nesting < more.lists) :
    Joins env (runUntilError fewer env programs) (run more env (listProgram programs)) := by
  obtain ⟨e, member⟩ := List.exists_mem_of_ne_nil es ne
  have positive : 0 < more.lists := Nat.zero_lt_of_lt (nested e member)
  have inside : (Expr.list es).nesting ≤ more.lists := nesting_list_le positive nested
  have same := run_of_writtenAs (writtenAs_listProgram written) inside env
  obtain ⟨d, hd⟩ : ∃ d, more.evaluations = d + 1 := Nat.exists_eq_add_of_le' (Nat.zero_lt_of_lt one)
  have le : fewer.evaluations ≤ d := by omega
  rw [hd] at same
  have each : List.Forall₂ (fun program e => ∀ env, ¬ (run fewer env program).result.TooDeep →
      (evaluateWithin d env e).withoutNotes = (run fewer env program).withoutNotes) programs es :=
    (written.imp fun e program h _ => evaluateWithin_of_run h le).flip
  exact joins_congr (untilError_congr env each enough).symm same (joins_evaluateWithin ne free d)

end

/-- **A list program is a session.**  Take programs that are one expression each, the first of them
no name that is reserved or bound.  Their list, as one program, prints what they print one after the
other until the first error, leaves the environment that they leave, and ends in that error or else
gives the list of their values.  This holds where the nested calls are enough for the list; and if
they are enough for the programs, one more nested evaluation is enough for the list, and one more list
that may be open. -/
theorem run_listProgram {env : Environment} {es : List Expr} {programs : List String}
    (ne : programs ≠ []) (written : List.Forall₂ Expr.WrittenAs es programs)
    (free : ∀ name, es.head? = some (.symbol name) →
      Operator.ofName? name = none ∧ env.contains name = false) :
    (∀ allowed, ¬ (run allowed env (listProgram programs)).result.TooDeep →
      Joins env (runUntilError allowed env programs) (run allowed env (listProgram programs))) ∧
    (∀ fewer more, (∀ r ∈ runUntilError fewer env programs, ¬ r.result.TooDeep) →
      fewer.evaluations < more.evaluations → (∀ e ∈ es, e.nesting < more.lists) →
        Joins env (runUntilError fewer env programs) (run more env (listProgram programs))) := by
  have some : es ≠ [] := by
    rintro rfl
    cases written
    exact ne rfl
  constructor
  · intro allowed enough
    exact joins_of_enough_for_list some written free enough
  · intro fewer more enough one nested
    exact joins_of_enough_for_programs some written free enough one nested

/-- Four programs, one after the other and in one list: the third ends in an error, and the fourth
does nothing. -/
theorem run_listProgram_of_failure :
    let few : Allowance := ⟨1, 3⟩
    let enough : Allowance := ⟨2, 4⟩
    Joins .default (runUntilError enough .default ["(let x y)", "(print x)", "(let z)", "(print y)"])
      (run enough .default "((let x y) (print x) (let z) (print y))") ∧
    Joins .default (runUntilError few .default ["(let x y)", "(print x)", "(let z)", "(print y)"])
      (run enough .default "((let x y) (print x) (let z) (print y))") := by
  intro few enough
  have written : List.Forall₂ Expr.WrittenAs
      [.list [.symbol "let", .symbol "x", .symbol "y"], .list [.symbol "print", .symbol "x"],
        .list [.symbol "let", .symbol "z"], .list [.symbol "print", .symbol "y"]]
      ["(let x y)", "(print x)", "(let z)", "(print y)"] :=
    writtenAs_sources (by decide +kernel) (by decide +kernel)
  have text : listProgram ["(let x y)", "(print x)", "(let z)", "(print y)"] =
      "((let x y) (print x) (let z) (print y))" := by decide +kernel
  have runs := @run_listProgram .default _ _ (by simp) written (by simp)
  rw [text] at runs
  exact ⟨runs.1 enough (by decide +kernel),
    runs.2 few enough (by decide +kernel) (by decide) (by decide)⟩

end Session
end DynLisp
