/-!
# Operators

The connectives, comparisons and membership tests that join two operands, and
the negation of one operand.  Each operator has a name, used in messages and in
dumps, and a symbol, used when an expression is written out.

**Results.**
* `BinaryOp.ofName?_name`: a name determines its operator.
* `BinaryOp.symbol_injective`: so does a symbol.
-/

namespace Criteria

/-- The operators with two operands. -/
inductive BinaryOp where
  | and
  | or
  | xor
  | equal
  | notEqual
  | lessThan
  | greaterThan
  | lessOrEqual
  | greaterOrEqual
  | belongsTo
  | isSubset
deriving DecidableEq

namespace BinaryOp

/-- All operators with two operands, in their fixed order. -/
def all : List BinaryOp :=
  [and, or, xor, equal, notEqual, lessThan, greaterThan, lessOrEqual,
    greaterOrEqual, belongsTo, isSubset]

def name : BinaryOp → String
  | and => "And"
  | or => "Or"
  | xor => "Xor"
  | equal => "Equal"
  | notEqual => "NotEqual"
  | lessThan => "LessThan"
  | greaterThan => "GreaterThan"
  | lessOrEqual => "LessOrEqual"
  | greaterOrEqual => "GreaterOrEqual"
  | belongsTo => "BelongsTo"
  | isSubset => "IsSubset"

def symbol : BinaryOp → String
  | and => "&"
  | or => "|"
  | xor => "^"
  | equal => "=="
  | notEqual => "≠"
  | lessThan => "<"
  | greaterThan => ">"
  | lessOrEqual => "<="
  | greaterOrEqual => ">="
  | belongsTo => "∈"
  | isSubset => "⊂"

/-- The operator with a given name; names are case-sensitive. -/
def ofName? (s : String) : Option BinaryOp :=
  all.find? (·.name = s)

/-- Whether the operator joins truth values. -/
def isLogical : BinaryOp → Bool
  | and | or | xor => true
  | _ => false

/-- Whether the operator compares for equality. -/
def isEquality : BinaryOp → Bool
  | equal | notEqual => true
  | _ => false

/-- Whether the operator compares the order of numbers. -/
def isRelational : BinaryOp → Bool
  | lessThan | greaterThan | lessOrEqual | greaterOrEqual => true
  | _ => false

/-- Whether the operator looks into a set. -/
def isMembership : BinaryOp → Bool
  | belongsTo | isSubset => true
  | _ => false

/-- Whether the operands may be swapped. -/
def isCommutative (op : BinaryOp) : Bool :=
  op.isLogical || op.isEquality

theorem ofName?_name (op : BinaryOp) : ofName? op.name = some op := by
  cases op <;> decide

theorem symbol_injective {p q : BinaryOp} (h : p.symbol = q.symbol) : p = q := by
  revert h
  cases p <;> cases q <;> decide

end BinaryOp

/-- An operator of either arity. -/
inductive Operator where
  | negation
  | binary (op : BinaryOp)
deriving DecidableEq

namespace Operator

def name : Operator → String
  | negation => "Not"
  | binary op => op.name

def symbol : Operator → String
  | negation => "~"
  | binary op => op.symbol

/-- The operator of either arity with a given name. -/
def ofName? (s : String) : Option Operator :=
  if s = "Not" then some negation else (BinaryOp.ofName? s).map binary

end Operator

end Criteria
