import DynLisp.Text.CodeRange

/-! # Blank characters

The characters that separate tokens: the spaces, line ends and tabulators of Unicode together with
the four information separators `U+001C` to `U+001F`. -/

namespace DynLisp.Text

def blankRanges : List (Nat × Nat) :=
  [(0x9, 0xd), (0x1c, 0x20), (0x85, 0x85), (0xa0, 0xa0), (0x1680, 0x1680), (0x2000, 0x200a),
   (0x2028, 0x2029), (0x202f, 0x202f), (0x205f, 0x205f), (0x3000, 0x3000)]

/-- White space between tokens. -/
def isBlank (c : Char) : Bool :=
  inRanges blankRanges c.toNat

/-- `cs` without the characters of the class `p` at either end. -/
def trimBoth (p : Char → Bool) (cs : List Char) : List Char :=
  ((cs.dropWhile p).reverse.dropWhile p).reverse

/-- A text without the blanks at either end. -/
def trimBlanks (s : String) : String :=
  .ofList (trimBoth isBlank s.toList)

example : isBlank ' ' ∧ isBlank '\n' ∧ isBlank '\u3000' ∧ ¬ isBlank 'a' ∧ ¬ isBlank '\u200b' := by
  decide

end DynLisp.Text
