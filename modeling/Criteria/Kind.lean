/-!
# Kinds of values

Every value is a truth value, a number, a text or a set.  Expressions and
templates may or may not say in advance which kind they yield.
-/

namespace Criteria

/-- The kind of a value. -/
inductive Kind where
  | boolean
  | number
  | string
  | set
deriving DecidableEq

namespace Kind

/-- The name by which messages call a kind. -/
def name : Kind → String
  | boolean => "Boolean"
  | number => "Number"
  | string => "String"
  | set => "Set"

/-- The kinds, in the order of their declaration. -/
def all : List Kind :=
  [boolean, number, string, set]

/-- The kind with a given name. -/
def ofName? (s : String) : Option Kind :=
  all.find? (·.name = s)

theorem ofName?_name (k : Kind) : ofName? k.name = some k := by
  cases k <;> decide

end Kind

end Criteria
