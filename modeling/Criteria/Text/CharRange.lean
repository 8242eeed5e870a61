/-!
# Character ranges

A class of characters is a list of ranges of code points, both ends included.
-/

namespace Criteria
namespace Text

/-- A range of code points, first and last included. -/
abbrev CharRange : Type := Nat × Nat

namespace CharRange

/-- Whether one of the ranges holds the code point of the character. -/
def mem (ranges : List CharRange) (c : Char) : Bool :=
  ranges.any fun r => r.1 ≤ c.toNat && c.toNat ≤ r.2

end CharRange

end Text
end Criteria
