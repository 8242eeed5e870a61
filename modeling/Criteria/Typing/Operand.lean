import Criteria.Kind
import Criteria.Operator

/-!
# Operand rules

Which kinds of operands an operator takes.  A kind that is not known in advance
always passes; the same rules are asked again with the kinds of the values.

**Results.**
* `BinaryOp.checkKinds_unknown`: operands of which nothing is known pass.
-/

namespace Criteria

/-- How operands break the rules of their operator. -/
inductive OperandError where
  /-- The operator takes another kind than the one found. -/
  | mismatch (op : Operator) (expected : String) (found : Kind)
  /-- The operator is not defined for the kind found. -/
  | unsupported (op : Operator) (found : Kind)
deriving DecidableEq

namespace OperandError

def message : OperandError → String
  | mismatch op expected found =>
      s!"Type mismatch: {op.name} expects {expected}, found {found.name}"
  | unsupported op found =>
      s!"Unsupported operation: {op.name} is not defined for {found.name}"

end OperandError

section Rules

variable (op : Operator)

/-- Accepts a truth value. -/
def expectBoolean : Option Kind → Except OperandError Unit
  | none => .ok ()
  | some found =>
      if found = .boolean then .ok ()
      else .error (.mismatch op Kind.boolean.name found)

/-- Accepts a number. -/
def expectNumber : Option Kind → Except OperandError Unit
  | none => .ok ()
  | some found =>
      if found = .number then .ok () else .error (.unsupported op found)

/-- Accepts a set. -/
def expectSet : Option Kind → Except OperandError Unit
  | none => .ok ()
  | some found =>
      if found = .set then .ok () else .error (.unsupported op found)

/-- Accepts anything but a set. -/
def expectElement : Option Kind → Except OperandError Unit
  | some .set => .error (.mismatch op "a non-set element" .set)
  | _ => .ok ()

/-- Accepts two operands of one kind. -/
def expectAlike : Option Kind → Option Kind → Except OperandError Unit
  | some left, some right =>
      if left = right then .ok ()
      else .error (.mismatch op s!"two {left.name} operands" right)
  | _, _ => .ok ()

end Rules

/-- The rule for the operand of a negation. -/
def checkNegation (operand : Option Kind) : Except OperandError Unit :=
  expectBoolean .negation operand

namespace BinaryOp

/-- The rule for the operands of an operator, the left one first. -/
def checkKinds (op : BinaryOp) (left right : Option Kind) :
    Except OperandError Unit :=
  match op with
  | and | or | xor => do
      expectBoolean (.binary op) left
      expectBoolean (.binary op) right
  | equal | notEqual => expectAlike (.binary op) left right
  | lessThan | greaterThan | lessOrEqual | greaterOrEqual => do
      expectNumber (.binary op) left
      expectNumber (.binary op) right
  | belongsTo => do
      expectElement (.binary op) left
      expectSet (.binary op) right
  | isSubset => do
      expectSet (.binary op) left
      expectSet (.binary op) right

theorem checkKinds_unknown (op : BinaryOp) :
    op.checkKinds none none = .ok () := by
  cases op <;> rfl

end BinaryOp

end Criteria
