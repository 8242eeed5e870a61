import Criteria.Text.Visible

/-!
# Quoted text

Two written forms of a text between double quotes.  A constant of an expression
escapes only what would end or spoil the quotes.  A value also shows every
character that cannot be seen by its code.

**Results.**
* `quoted_toList`: the form of a constant is written character by character
  between two quotes.
-/

namespace Criteria
namespace Text

/-- How a constant writes one character. -/
def escapeQuoted (c : Char) : List Char :=
  if c = '"' ∨ c = '\\' then ['\\', c] else [c]

/-- A text as a constant of an expression writes it. -/
def quoted (s : String) : String :=
  String.ofList ('"' :: s.toList.flatMap escapeQuoted ++ ['"'])

/-- How a value writes a character that is shown by its code. -/
def showCode (c : Char) : List Char :=
  ['\\', 'u', '\x7b'] ++ Nat.toDigits 16 c.toNat ++ ['\x7d']

/-- How a value writes one character. -/
def escapeShown (c : Char) : List Char :=
  if c = '\x00' then ['\\', '0']
  else if c = '\t' then ['\\', 't']
  else if c = '\n' then ['\\', 'n']
  else if c = '\r' then ['\\', 'r']
  else if c = '"' ∨ c = '\\' then ['\\', c]
  else if isHidden c then showCode c
  else [c]

/-- A text as a value writes it. -/
def shown (s : String) : String :=
  String.ofList ('"' :: s.toList.flatMap escapeShown ++ ['"'])

theorem quoted_toList (s : String) :
    (quoted s).toList = '"' :: s.toList.flatMap escapeQuoted ++ ['"'] := by
  simp [quoted]

end Text
end Criteria
