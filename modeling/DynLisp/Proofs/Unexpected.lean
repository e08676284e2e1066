import Mathlib.Data.List.DropRight
import DynLisp.Proofs.TokenLayout

/-! # Unexpected characters

A character is expected in a program if it is blank or printable.  Splitting a text fails exactly if
some character is unexpected; it stops at the first one, and gives the tokens of the text before the
run of literal characters that this one stands in.

* `lexFrom_of_expected`: without an unexpected character a text is split.
* `exists_lexFrom_append`: behind a blank or a parenthesis splitting begins anew, with the tokens of
  the text so far.
* `lex_of_firstUnexpected`: so the run of the first unexpected character is split on its own, and gives
  no token. -/

namespace DynLisp
namespace Token

open Text

/-- A character that may stand in a program. -/
def isExpected (c : Char) : Bool :=
  isBlank c || isPrintable c

theorem isExpected_opening : isExpected '(' := by decide

theorem isExpected_closing : isExpected ')' := by decide

theorem isLiteralChar_of_isExpected {c : Char} (h : isExpected c) (hc : endsLiteral c = false) :
    isLiteralChar c := by
  simp only [endsLiteral, Bool.or_eq_false_iff, beq_eq_false_iff_ne] at hc
  obtain ⟨⟨blank, opening⟩, closing⟩ := hc
  simpa [isLiteralChar, isExpected, blank, opening, closing] using h

theorem endsLiteral_of_not_isExpected {c : Char} (h : isExpected c = false) :
    endsLiteral c = false := by
  apply Bool.eq_false_iff.2
  intro ends
  simp only [endsLiteral, Bool.or_eq_true, beq_iff_eq] at ends
  rcases ends with (blank | rfl) | rfl
  · simp [isExpected, blank] at h
  · simp [isExpected_opening] at h
  · simp [isExpected_closing] at h

/-- The first unexpected character of a text is `c`, after `before` and `run`, where `run` reaches back
from `c` to the last blank or parenthesis or to the beginning. -/
structure FirstUnexpected (text before run : List Char) (c : Char) : Prop where
  found : before ++ (run ++ [c]) <+: text
  expected : ∀ x ∈ before ++ run, isExpected x
  unexpected : isExpected c = false
  together : ∀ x ∈ run ++ [c], endsLiteral x = false
  apart : ∀ x ∈ before.getLast?, endsLiteral x

theorem FirstUnexpected.mem {text before run : List Char} {c : Char}
    (h : FirstUnexpected text before run c) : c ∈ text :=
  h.found.subset (by simp)

/-- What stands before the first unexpected character ends in a part of its run. -/
theorem exists_firstUnexpected {text ahead : List Char} {c : Char} (found : ahead ++ [c] <+: text)
    (expected : ∀ x ∈ ahead, isExpected x) (unexpected : isExpected c = false) :
    ∃ before run, before ++ run = ahead ∧ FirstUnexpected text before run c := by
  have cut : ahead.rdropWhile (!endsLiteral ·) ++ ahead.rtakeWhile (!endsLiteral ·) = ahead :=
    List.rdropWhile_append_rtakeWhile
  refine ⟨_, _, cut, ?_, ?_, unexpected, ?_, ?_⟩
  · rw [← List.append_assoc, cut]
    exact found
  · rwa [cut]
  · intro x hx
    rcases List.mem_append.1 hx with hx | hx
    · simpa using List.mem_rtakeWhile_imp hx
    · rw [List.mem_singleton.1 hx]
      exact endsLiteral_of_not_isExpected unexpected
  · intro x hx
    obtain ⟨ne, rfl⟩ := List.mem_getLast?_eq_getLast hx
    simpa using List.rdropWhile_last_not (!endsLiteral ·) ahead ne

theorem exists_firstUnexpected_of_mem {text : List Char} {c : Char} (hc : c ∈ text)
    (unexpected : isExpected c = false) : ∃ before run d, FirstUnexpected text before run d := by
  have found : (text.find? (!isExpected ·)).isSome := List.find?_isSome.2 ⟨c, hc, by simp [unexpected]⟩
  obtain ⟨d, hd⟩ := Option.isSome_iff_exists.1 found
  obtain ⟨first, ahead, rest, rfl, expected⟩ := List.find?_eq_some_iff_append.1 hd
  have cut : ahead ++ [d] <+: ahead ++ d :: rest := ⟨rest, by simp⟩
  obtain ⟨before, run, -, h⟩ :=
    exists_firstUnexpected cut (by simpa using expected) (by simpa using first)
  exact ⟨before, run, d, h⟩

/-! ### Splitting -/

/-- A text without unexpected characters is split, whatever was met before it. -/
theorem lexFrom_of_expected : ∀ {cs : List Char} (offset : Nat) (run : List Char)
    (tokens : List Token), (∀ c ∈ cs, isExpected c) → ∃ ts, lexFrom offset run tokens cs = (ts, none)
  | [], offset, run, tokens, _ => ⟨_, rfl⟩
  | c :: cs, offset, run, tokens, h => by
      rw [List.forall_mem_cons] at h
      rw [lexFrom]
      split
      · exact lexFrom_of_expected _ _ _ h.2
      rename_i notBlank
      split
      · exact lexFrom_of_expected _ _ _ h.2
      split
      · exact lexFrom_of_expected _ _ _ h.2
      have printable : isPrintable c := by simpa [isExpected, notBlank] using h.1
      rw [if_pos printable]
      exact lexFrom_of_expected _ _ _ h.2

/-- A blank gives no token and a parenthesis gives itself, whatever follows. -/
theorem exists_lexFrom_cons {c : Char} (hc : endsLiteral c) : ∃ ps : List Token,
    ∀ offset tokens rest, lexFrom offset [] tokens (c :: rest) =
      lexFrom (offset + 1) [] (ps ++ tokens) rest := by
  simp only [endsLiteral, Bool.or_eq_true, beq_iff_eq] at hc
  rcases hc with (blank | rfl) | rfl
  · exact ⟨[], fun _ _ _ => by simp [lexFrom, blank, flush_nil]⟩
  · exact ⟨[opening], fun _ _ _ => by simp [lexFrom, isBlank_opening, flush_nil]⟩
  · exact ⟨[closing], fun _ _ _ => by simp [lexFrom, isBlank_closing, flush_nil]⟩

/-- Behind a blank or a parenthesis, and at the beginning, splitting goes on with the tokens so far and
without a run. -/
theorem exists_lexFrom_append {before : List Char} (expected : ∀ c ∈ before, isExpected c)
    (apart : ∀ c ∈ before.getLast?, endsLiteral c) : ∃ ts : List Token,
      ∀ rest, lexFrom 0 [] [] (before ++ rest) = lexFrom before.length [] ts.reverse rest := by
  rcases List.eq_nil_or_concat' before with rfl | ⟨front, c, rfl⟩
  · exact ⟨[], fun _ => rfl⟩
  · have ends : endsLiteral c := apart c (by simp)
    have expectedFront : ∀ x ∈ front, isExpected x := fun x hx => expected x (by simp [hx])
    obtain ⟨us, split⟩ := lexFrom_of_expected 0 [] [] expectedFront
    obtain ⟨ps, cons⟩ := exists_lexFrom_cons ends
    refine ⟨us ++ ps.reverse, fun rest => ?_⟩
    have joined := lexFrom_append ends rest [] 0 split
    rw [List.append_nil, List.append_nil, Nat.zero_add] at joined
    rw [List.append_assoc, List.singleton_append, joined, cons]
    simp

/-- A run of literal characters before an unexpected one gives no token. -/
theorem lexFrom_unexpected {run : List Char} {c : Char} (hr : ∀ x ∈ run, isLiteralChar x)
    (hc : isExpected c = false) (offset : Nat) (tokens : List Token) (rest : List Char) :
    lexFrom offset [] tokens (run ++ c :: rest) =
      (tokens.reverse, some ⟨c, offset + run.length⟩) := by
  have ends := endsLiteral_of_not_isExpected hc
  simp only [endsLiteral, Bool.or_eq_false_iff, beq_eq_false_iff_ne] at ends
  obtain ⟨⟨blank, opening⟩, closing⟩ := ends
  simp only [isExpected, blank, Bool.false_or] at hc
  rw [lexFrom_literal _ _ _ _ hr]
  simp [lexFrom, blank, opening, closing, hc]

/-- Splitting stops at the first unexpected character, with the tokens of what stands before its run. -/
theorem lex_of_firstUnexpected {s : String} {before run : List Char} {c : Char}
    (h : FirstUnexpected s.toList before run c) : ∃ ts, tokenize (.ofList before) = .ok ts ∧
      lex s = (ts, some ⟨c, before.length + run.length⟩) := by
  have expected : ∀ x ∈ before, isExpected x := fun x hx => h.expected x (by simp [hx])
  obtain ⟨ts, behind⟩ := exists_lexFrom_append expected h.apart
  obtain ⟨rest, text⟩ := h.found
  refine ⟨ts, ?_, ?_⟩
  · have whole := behind []
    rw [tokenize_eq_ok_iff_lexFrom, String.toList_ofList]
    simpa [lexFrom, flush_nil] using whole
  · have literal : ∀ x ∈ run, isLiteralChar x := fun x hx =>
      isLiteralChar_of_isExpected (h.expected x (by simp [hx])) (h.together x (by simp [hx]))
    have chars : before ++ (run ++ c :: rest) = s.toList := by simpa using text
    rw [lex, ← chars, behind, lexFrom_unexpected literal h.unexpected, List.reverse_reverse]

theorem exists_firstUnexpected_of_lex {s : String} (h : (lex s).2.isSome) :
    ∃ before run c, FirstUnexpected s.toList before run c := by
  by_contra none
  have expected : ∀ c ∈ s.toList, isExpected c := by
    intro c hc
    by_contra unexpected
    exact none (exists_firstUnexpected_of_mem hc (Bool.eq_false_iff.2 unexpected))
  obtain ⟨ts, split⟩ := lexFrom_of_expected 0 [] [] expected
  simp [lex, split] at h

/-- **Unexpected characters.**  Splitting a text fails exactly if it holds an unexpected character.  It
stops at the first one with the tokens of the text before the run of this character, and names the
character and its place. -/
theorem lex_stops_at_unexpected (s : String) :
    ((lex s).2.isSome ↔ ∃ c ∈ s.toList, isExpected c = false) ∧
    ∀ (ts : List Token) (e : LexError), lex s = (ts, some e) ↔
      ∃ before run, FirstUnexpected s.toList before run e.char ∧
        e.offset = before.length + run.length ∧ tokenize (.ofList before) = .ok ts := by
  refine ⟨⟨?_, ?_⟩, fun ts e => ⟨?_, ?_⟩⟩
  · intro failed
    obtain ⟨before, run, c, first⟩ := exists_firstUnexpected_of_lex failed
    exact ⟨c, first.mem, first.unexpected⟩
  · rintro ⟨c, hc, unexpected⟩
    obtain ⟨before, run, d, first⟩ := exists_firstUnexpected_of_mem hc unexpected
    obtain ⟨ts, -, stopped⟩ := lex_of_firstUnexpected first
    simp [stopped]
  · intro failed
    obtain ⟨before, run, c, first⟩ := exists_firstUnexpected_of_lex (s := s) (by simp [failed])
    obtain ⟨us, lexed, stopped⟩ := lex_of_firstUnexpected first
    rw [stopped] at failed
    cases failed
    exact ⟨before, run, first, rfl, lexed⟩
  · rintro ⟨before, run, first, offset, lexed⟩
    obtain ⟨us, lexed', stopped⟩ := lex_of_firstUnexpected first
    rw [lexed] at lexed'
    cases lexed'
    rw [stopped, ← offset]

/-- With a bell between `b` and `c`, the tokens before `b` are given and `b` is not. -/
example : lex "(a b\x07c" = ([opening, literal "a"], some ⟨'\x07', 4⟩) := by decide +kernel

end Token
end DynLisp
