import DynLisp.Proofs.ListProgram
import DynLisp.Proofs.Unexpected

/-! # Reading a program before it runs

A program is split into tokens as a whole, and then its first expression is read; only then is anything
evaluated.

* An unexpected character anywhere keeps the program from running, and so do tokens that begin with no
  expression; the environment stays as it is, and nothing is printed.
* Behind the first expression the program may go on with any tokens: the text up to a space is split alike
  whatever follows (`tokenize_append`), and so the same expression is read. -/

namespace DynLisp

namespace Token

/-- A text with an unexpected character is not split. -/
theorem tokenize_of_unexpected {s : String} {ahead : List Char} {c : Char}
    (found : ahead ++ [c] <+: s.toList) (expected : ∀ x ∈ ahead, isExpected x)
    (unexpected : isExpected c = false) : tokenize s = .error ⟨c, ahead.length⟩ := by
  obtain ⟨before, run, rfl, first⟩ := exists_firstUnexpected found expected unexpected
  obtain ⟨ts, -, stopped⟩ := lex_of_firstUnexpected first
  rw [tokenize, stopped, List.length_append]

theorem tokenize_of_expected {s : String} (h : ∀ c ∈ s.toList, isExpected c) :
    ∃ ts, tokenize s = .ok ts := by
  obtain ⟨ts, split⟩ := lexFrom_of_expected 0 [] [] h
  exact ⟨ts, tokenize_eq_ok_iff_lexFrom.2 split⟩

/-- A text that goes on after a space begins with the tokens that it has without what follows. -/
theorem tokenize_append {s following : String} {ts us : List Token} (h : tokenize s = .ok ts)
    (whole : tokenize (s ++ " " ++ following) = .ok us) : ts <+: us := by
  have ends : endsLiteral ' ' := by decide
  have chars : (s ++ " " ++ following).toList = s.toList ++ ' ' :: following.toList := by simp
  have joined := lexFrom_append ends following.toList [] 0 (tokenize_eq_ok_iff_lexFrom.1 h)
  rw [tokenize_eq_ok_iff_lexFrom, chars] at whole
  rw [List.append_nil, whole, List.append_nil] at joined
  obtain ⟨l, -, -, tokens⟩ := exists_layout_of_lexFrom (by simp) joined.symm
  rw [List.reverse_reverse] at tokens
  exact ⟨l.tokens, tokens⟩

end Token

namespace Expr

theorem exists_parseRoot_eq_error_iff {limit : Nat} {ts : List Token} :
    (∃ cause, parseRoot limit ts = .error cause) ↔
      ¬ ∃ e used, used <+: ts ∧ Spells e used ∧ e.nesting ≤ limit := by
  constructor
  · rintro ⟨cause, failed⟩ ⟨e, used, cut, spelled, nested⟩
    rw [parseRoot_of_spells spelled cut nested] at failed
    cases failed
  · intro none
    cases parsed : parseRoot limit ts with
    | error cause => exact ⟨cause, rfl⟩
    | ok read =>
        obtain ⟨used, rest, rfl, spelled, nested, -⟩ := parseRoot_eq_ok_iff.1 parsed
        exact absurd ⟨read.1, used, List.prefix_append used rest, spelled, nested⟩ none

end Expr

namespace Session

/-- An evaluation does not end in an error of reading. -/
theorem result_evaluate_ne_parse (allowed : Allowance) (env : Environment) (e : Expr) (cause : ParseError) :
    (evaluate allowed env e).result ≠ .error (.parse cause) := by
  unfold evaluate
  cases eval allowed.evaluations e (.start env) with
  | ok outcome m => cases outcome <;> simp [Result.ofOutcome]
  | error failure m => cases failure <;> simp [Result.ofFailure]

section
variable {allowed : Allowance} {env : Environment} {program : String} {ts : List Token}
  (lexed : Token.tokenize program = .ok ts)

include lexed

theorem run_of_parseRoot_error {cause : ParseError} (failed : Expr.parseRoot allowed.lists ts = .error cause) :
    run allowed env program = .untouched env (.parse cause) [.readTokens ts.length] := by
  rw [run, lexed]
  simp only [failed]

theorem withoutNotes_run {e : Expr} {left : Nat} (parsed : Expr.parseRoot allowed.lists ts = .ok (e, left)) :
    (run allowed env program).withoutNotes = (evaluate allowed env e).withoutNotes := by
  obtain ⟨notes, same⟩ := run_of_parseRoot env lexed parsed
  rw [same]
  rfl

theorem exists_parse_error_iff :
    (∃ cause, run allowed env program = .untouched env (.parse cause) [.readTokens ts.length]) ↔
      ∃ cause, Expr.parseRoot allowed.lists ts = .error cause := by
  constructor
  · rintro ⟨cause, failed⟩
    cases parsed : Expr.parseRoot allowed.lists ts with
    | error other => exact ⟨other, rfl⟩
    | ok read =>
        have same : (run allowed env program).withoutNotes = (evaluate allowed env read.1).withoutNotes :=
          withoutNotes_run lexed parsed
        rw [failed] at same
        replace same := congrArg Report.result same
        exact absurd same.symm (result_evaluate_ne_parse allowed env read.1 cause)
  · rintro ⟨cause, failed⟩
    exact ⟨cause, run_of_parseRoot_error lexed failed⟩

/-- What follows the first expression makes no difference. -/
theorem run_append {e : Expr} {used us : List Token} {following : String} (cut : used <+: ts)
    (spelled : Expr.Spells e used)
    (whole : Token.tokenize (program ++ " " ++ following) = .ok us) :
    (run allowed env (program ++ " " ++ following)).withoutNotes =
      (run allowed env program).withoutNotes := by
  have longer : used <+: us := cut.trans (Token.tokenize_append lexed whole)
  rcases Nat.lt_or_ge allowed.lists e.nesting with deep | nested
  · rw [run_of_parseRoot_error lexed (Expr.parseRoot_of_deep spelled cut deep),
      run_of_parseRoot_error whole (Expr.parseRoot_of_deep spelled longer deep)]
    rfl
  · rw [withoutNotes_run lexed (Expr.parseRoot_of_spells spelled cut nested),
      withoutNotes_run whole (Expr.parseRoot_of_spells spelled longer nested)]

end

/-- **Reading before running.**  An unexpected character in a program, wherever it stands, is reported as
the first such character, and tokens that begin with no expression are reported as an error of reading;
in both cases nothing is printed and the environment stays as it is.  What follows the first expression of
a program after a space makes no difference, if only it can be split. -/
theorem run_reads_root (allowed : Allowance) (env : Environment) :
    (∀ (program : String) (ahead : List Char) (c : Char), ahead ++ [c] <+: program.toList →
      (∀ x ∈ ahead, Token.isExpected x) → Token.isExpected c = false →
        run allowed env program = .untouched env (.lex ⟨c, ahead.length⟩) []) ∧
    (∀ program : String, (∀ c ∈ program.toList, Token.isExpected c) →
      ∃ ts, Token.tokenize program = .ok ts ∧
        ((∃ cause, run allowed env program = .untouched env (.parse cause) [.readTokens ts.length]) ↔
          ¬ ∃ e used, used <+: ts ∧ Expr.Spells e used ∧ e.nesting ≤ allowed.lists)) ∧
    (∀ (program following : String) (ts used us : List Token) (e : Expr),
      Token.tokenize program = .ok ts → used <+: ts → Expr.Spells e used →
      Token.tokenize (program ++ " " ++ following) = .ok us →
        (run allowed env (program ++ " " ++ following)).withoutNotes =
          (run allowed env program).withoutNotes) ∧
    (∀ e : LexError, (ProgramError.lex e).message = "Lex error: " ++ e.message) ∧
    (∀ cause : ParseError, (ProgramError.parse cause).message = "Parse error: " ++ cause.message) := by
  refine ⟨?_, ?_, ?_, fun _ => rfl, fun _ => rfl⟩
  · intro program ahead c found expected unexpected
    rw [run, Token.tokenize_of_unexpected found expected unexpected]
  · intro program expected
    obtain ⟨ts, lexed⟩ := Token.tokenize_of_expected expected
    exact ⟨ts, lexed, (exists_parse_error_iff lexed).trans Expr.exists_parseRoot_eq_error_iff⟩
  · intro program following ts used us e lexed cut spelled whole
    exact run_append lexed cut spelled whole

/-- A call followed by a bell, a text that begins with a closing parenthesis, and a call followed by
parentheses that match nothing. -/
theorem run_reads_root_of_calls :
    run ⟨9, 4⟩ .default "(print 1) \x07" = .untouched .default (.lex ⟨'\x07', 10⟩) [] ∧
    (∃ cause, run ⟨9, 4⟩ .default ") (print 1)" =
      .untouched .default (.parse cause) [.readTokens 5]) ∧
    (run ⟨9, 4⟩ .default "(print 1) ) ((").withoutNotes = (run ⟨9, 4⟩ .default "(print 1)").withoutNotes := by
  refine ⟨?_, ?_, ?_⟩
  · exact (run_reads_root ⟨9, 4⟩ .default).1 "(print 1) \x07" "(print 1) ".toList '\x07' (by decide +kernel)
      (List.all_eq_true.1 (by decide +kernel)) (by decide +kernel)
  · obtain ⟨ts, lexed, unread⟩ := (run_reads_root ⟨9, 4⟩ .default).2.1 ") (print 1)"
      (List.all_eq_true.1 (by decide +kernel))
    have tokens : Token.tokenize ") (print 1)" =
        .ok [.closing, .opening, .literal "print", .literal "1", .closing] := by decide +kernel
    rw [tokens] at lexed
    cases lexed
    refine unread.2 ?_
    rintro ⟨e, used, cut, spelled, -⟩
    cases spelled with
    | literal ht =>
        obtain ⟨rfl, -⟩ := List.cons_prefix_cons.1 cut
        cases ht
    | list hf _ _ =>
        obtain ⟨rfl, -⟩ := List.cons_prefix_cons.1 cut
        cases hf
  · have call : Expr.Spells (.list [.symbol "print", Expr.ofLiteral "1"])
        [.opening, .literal "print", .literal "1", .closing] :=
      .list rfl (.cons (.literal (t := .literal "print") rfl)
        (.singleton (.literal (t := .literal "1") rfl))) rfl
    have whole : Token.tokenize ("(print 1)" ++ " " ++ ") ((") =
        .ok [.opening, .literal "print", .literal "1", .closing, .closing, .opening, .opening] := by
      decide +kernel
    exact (run_reads_root ⟨9, 4⟩ .default).2.2.1 "(print 1)" ") ((" _ _ _ _ (by decide +kernel)
      List.prefix_rfl call whole

end Session
end DynLisp
