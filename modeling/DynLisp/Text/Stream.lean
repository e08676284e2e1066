/-! # Output streams

A stream writes texts in its encoding.  It takes a text as a whole if the encoding has all of its
characters, and refuses it as a whole if not. -/

namespace DynLisp

/-- A stream, of which it matters here what it can write. -/
structure Stream where
  encodes : Char → Bool

namespace Stream

/-- The stream takes this text. -/
def writes (out : Stream) (text : String) : Bool :=
  text.toList.all out.encodes

/-- A stream whose encoding has every character. -/
def unicode : Stream := ⟨fun _ => true⟩

/-- A stream whose encoding has the characters below 128. -/
def ascii : Stream := ⟨fun c => c.toNat < 128⟩

theorem writes_of_encodes {out : Stream} (h : ∀ c, out.encodes c) (text : String) :
    out.writes text :=
  List.all_eq_true.2 fun c _ => h c

example : ascii.writes "a b" ∧ ascii.writes "é" = false := by decide

end Stream
end DynLisp
