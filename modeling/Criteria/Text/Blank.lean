import Criteria.Text.CharRange

/-!
# Blank characters

The characters with the Unicode property White_Space.  A segment of an
identifier path may hold none of them.

**Results.**
* `isBlank_of_isWhitespace`: every character of the ASCII class is blank.
-/

namespace Criteria
namespace Text

/-- The characters with the property White_Space. -/
def blankRanges : List CharRange :=
  [(0x09, 0x0D), (0x20, 0x20), (0x85, 0x85), (0xA0, 0xA0), (0x1680, 0x1680),
    (0x2000, 0x200A), (0x2028, 0x2029), (0x202F, 0x202F), (0x205F, 0x205F),
    (0x3000, 0x3000)]

/-- Whether a character is white space, in the whole of Unicode. -/
def isBlank (c : Char) : Bool :=
  CharRange.mem blankRanges c

theorem isBlank_of_isWhitespace
    (c : Char) (h : c.isWhitespace = true) :
    isBlank c = true := by
  simp only [Char.isWhitespace, Bool.or_eq_true, decide_eq_true_eq] at h
  rcases h with ((rfl | rfl) | rfl) | rfl <;> decide

end Text
end Criteria
