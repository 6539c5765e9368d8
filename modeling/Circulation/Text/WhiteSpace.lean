/-!
Contract: the Unicode property `White_Space`.

Owns:
- the table of the characters that have the property, as ranges of code points;
- `isWhiteSpace`, and that it covers the white space of ASCII.

Does not own: which of these characters separate the words of rule text.
-/

namespace Circulation.Text

/-- The code points with the property `White_Space`, as ranges with both ends. -/
def whiteSpaceRanges : List (Nat × Nat) :=
  [(0x0009, 0x000D), (0x0020, 0x0020), (0x0085, 0x0085), (0x00A0, 0x00A0), (0x1680, 0x1680),
    (0x2000, 0x200A), (0x2028, 0x2029), (0x202F, 0x202F), (0x205F, 0x205F), (0x3000, 0x3000)]

/-- Whether a character has the property `White_Space`. -/
def isWhiteSpace (char : Char) : Bool :=
  whiteSpaceRanges.any fun range => range.1 ≤ char.toNat && char.toNat ≤ range.2

theorem isWhiteSpace_of_isWhitespace {char : Char} (blank : char.isWhitespace = true) :
    isWhiteSpace char = true := by
  simp only [Char.isWhitespace, Bool.or_eq_true, decide_eq_true_eq] at blank
  rcases blank with ((rfl | rfl) | rfl) | rfl <;> decide

end Circulation.Text
