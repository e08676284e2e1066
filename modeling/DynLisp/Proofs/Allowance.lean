import DynLisp.Proofs.Approximation
import DynLisp.Session

/-! # More nested calls

A run that had enough nested calls stays as it is with more of them, and one that had not prints at
least what it printed before.  For the evaluation this is `eval_approximates`; reading adds that more
lists may be open at once (`readFrom_of_le`). -/

namespace DynLisp

/-! ### Reading -/

namespace Expr

/-- With more lists allowed inside one another, reading stays as it is, unless they were too many. -/
theorem readFrom_of_le {limit limit' : Nat} (h : limit ≤ limit') :
    ∀ {tokens : List Token} {opened : List (List Expr)},
      (readFrom limit opened tokens).1 ≠ .error .nestedTooDeeply →
        readFrom limit' opened tokens = readFrom limit opened tokens
  | [], opened, _ => by simp only [readFrom]
  | token :: rest, opened, hd => by
      cases hk : token.kind with
      | literal =>
          cases opened with
          | nil => simp only [readFrom, hk]
          | cons items outer =>
              simp only [readFrom, hk] at hd ⊢
              exact readFrom_of_le h hd
      | opening =>
          simp only [readFrom, hk] at hd ⊢
          split at hd
          · rename_i room
            rw [if_pos room, if_pos (Nat.lt_of_lt_of_le room h)]
            exact readFrom_of_le h hd
          · exact absurd rfl hd
      | closing =>
          match opened with
          | [] => simp only [readFrom, hk]
          | [items] => simp only [readFrom, hk]
          | items :: next :: outer =>
              simp only [readFrom, hk] at hd ⊢
              exact readFrom_of_le h hd
      | foreign name => simp only [readFrom, hk]

theorem parseRoot_of_le {limit limit' : Nat} (h : limit ≤ limit') {tokens : List Token}
    (hd : parseRoot limit tokens ≠ .error .nestedTooDeeply) :
    parseRoot limit' tokens = parseRoot limit tokens := by
  have same : readFrom limit' [] tokens = readFrom limit [] tokens := by
    apply readFrom_of_le h
    intro deep
    apply hd
    simp only [parseRoot, parseAt, Cursor.parse, List.drop_zero, deep, Except.map]
  simp only [parseRoot, parseAt, Cursor.parse, List.drop_zero, same]

end Expr

/-! ### Runs -/

/-- Ended because the nested calls were not enough, to read the program or to evaluate it. -/
def Result.TooDeep (r : Result) : Prop :=
  r = .error (.parse .nestedTooDeeply) ∨ r = .error .exhausted

instance : DecidablePred Result.TooDeep
  | .value _ => isFalse (by rintro (h | h) <;> cases h)
  | .unit => isFalse (by rintro (h | h) <;> cases h)
  | .error .exhausted => isTrue (.inr rfl)
  | .error (.lex _) => isFalse (by rintro (h | h) <;> cases h)
  | .error (.eval _) => isFalse (by rintro (h | h) <;> cases h)
  | .error (.parse e) =>
      decidable_of_iff (e = .nestedTooDeeply) (by simp [Result.TooDeep])

namespace Session

/-- At least as much is allowed to every stage. -/
instance : LE Allowance :=
  ⟨fun fewer more => fewer.lists ≤ more.lists ∧ fewer.evaluations ≤ more.evaluations⟩

variable {fewer more : Allowance}

theorem evaluate_of_le (h : fewer.evaluations ≤ more.evaluations) (env : Environment) (e : Expr) :
    evaluate more env e = evaluate fewer env e ∨
      (evaluate fewer env e).result = .error .exhausted ∧
        (evaluate fewer env e).printed <+: (evaluate more env e).printed := by
  rcases eval_of_le h e (.start env) with same | ⟨m', ended, printed⟩
  · left
    simp only [evaluate, same]
  · right
    have prints : (evaluate more env e).printed =
        ((eval more.evaluations e).after (.start env)).printed.toList := by
      unfold evaluate Eval.after
      cases eval more.evaluations e (.start env) <;> rfl
    rw [prints]
    simp only [evaluate, ended]
    exact ⟨rfl, printed⟩

/-- A run stays as it is with more nested calls, unless they were not enough. -/
theorem run_of_le (h : fewer ≤ more) (env : Environment) (program : String) :
    run more env program = run fewer env program ∨
      (run fewer env program).result.TooDeep ∧
        (run fewer env program).printed <+: (run more env program).printed := by
  unfold run
  cases Token.tokenize program with
  | error e => exact .inl rfl
  | ok tokens =>
      by_cases hd : Expr.parseRoot fewer.lists tokens = .error .nestedTooDeeply
      · right
        simp only [hd]
        exact ⟨.inl rfl, List.nil_prefix⟩
      simp only [Expr.parseRoot_of_le h.1 hd]
      cases hp : Expr.parseRoot fewer.lists tokens with
      | error e => exact .inl rfl
      | ok read =>
          obtain ⟨e, discarded⟩ := read
          rcases evaluate_of_le h.2 env e with same | ⟨ended, printed⟩
          · left
            simp only [same]
          · right
            exact ⟨.inr ended, printed⟩

theorem run_eq_of_not_tooDeep (h : fewer ≤ more) {env : Environment} {program : String}
    (hr : ¬ (run fewer env program).result.TooDeep) :
    run more env program = run fewer env program :=
  (run_of_le h env program).resolve_right fun deep => hr deep.1

theorem printed_prefix_of_le (h : fewer ≤ more) (env : Environment) (program : String) :
    (run fewer env program).printed <+: (run more env program).printed := by
  rcases run_of_le h env program with same | ⟨-, printed⟩
  · exact same ▸ List.prefix_rfl
  · exact printed

end Session

/-- What is said of a run that ends in an error. -/
def Result.message? : Result → Option String
  | .error cause => some cause.message
  | _ => none

namespace Session

/-- What is said of runs for which the nested calls are not enough. -/
def depthMessages : List String :=
  ["Maximum recursion depth exceeded during evaluation.",
    "Parse error: expression nested too deeply"]

theorem exists_depthMessage {r : Result} (h : r.TooDeep) :
    ∃ message ∈ r.message?, message ∈ depthMessages := by
  rcases h with rfl | rfl <;> exact ⟨_, rfl, by decide⟩

/-- **More nested calls.**  A run that does not end for want of nested calls is the same with more of
them; and one that does has printed the first lines of what is printed with more of them. -/
theorem run_with_more_calls {fewer more : Allowance} (h : fewer ≤ more) (env : Environment)
    (program : String) :
    ((∀ message ∈ (run fewer env program).result.message?, message ∉ depthMessages) →
      run more env program = run fewer env program) ∧
    ((∃ message ∈ (run fewer env program).result.message?, message ∈ depthMessages) →
      (run fewer env program).printed <+: (run more env program).printed ∧
        ∃ rest, (run more env program).output = (run fewer env program).output ++ rest) := by
  constructor
  · intro otherwise
    apply run_eq_of_not_tooDeep h
    intro deep
    obtain ⟨message, said, depth⟩ := exists_depthMessage deep
    exact otherwise message said depth
  · intro _
    obtain ⟨further, split⟩ := printed_prefix_of_le h env program
    refine ⟨⟨further, split⟩, String.join (further.map (· ++ "\n")), ?_⟩
    rw [Report.output, ← split, List.map_append, String.join_append]
    rfl

/-- Where four lists inside one another are too many, the first line is printed all the same; and an
error of another kind is the same with more nested calls. -/
theorem more_calls_after_exhaustion :
    let fewer : Allowance := ⟨8, 4⟩
    let more : Allowance := ⟨1000, 500⟩
    fewer ≤ more ∧
    (run fewer .default "((print a) (print b (((c)))) (((d))))").printed <+:
      (run more .default "((print a) (print b (((c)))) (((d))))").printed ∧
    run more .default "((print a) (let b))" = run fewer .default "((print a) (let b))" := by
  intro fewer more
  have le : fewer ≤ more := ⟨by decide, by decide⟩
  have deep : ∃ message ∈ (run fewer .default "((print a) (print b (((c)))) (((d))))").result.message?,
      message ∈ depthMessages := by decide +kernel
  have shallow : ∀ message ∈ (run fewer .default "((print a) (let b))").result.message?,
      message ∉ depthMessages := by decide +kernel
  exact ⟨le, ((run_with_more_calls le _ _).2 deep).1, (run_with_more_calls le _ _).1 shallow⟩

end Session
end DynLisp
