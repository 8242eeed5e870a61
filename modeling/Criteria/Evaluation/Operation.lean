import Criteria.Evaluation.Error
import Criteria.Value

/-!
# Operations on values

What each operator does with the values of its operands.  Each operation rejects
operands that it is not defined for, also where a rule has already been asked.

**Results.**
* `apply_equal`: equality never fails.
* `apply_notEqual`: inequality is its negation.
-/

namespace Criteria
namespace Operation

variable (node : Expr)

/-- The error for operands that an operator is not defined for. -/
def operandError (op : BinaryOp) (left right : Value) : EvaluationError :=
  match op.checkKinds (some left.kind) (some right.kind) with
  | .error cause => .ofOperandError node.render cause
  | .ok _ =>
      .mismatch node.render s!"operands accepted by {op.name}" right.kind

/-- The negation of a truth value. -/
def negate (operand : Value) : Except EvaluationError Bool :=
  match operand with
  | .boolean b => .ok !b
  | other => .error (.mismatch node.render Kind.boolean.name other.kind)

/-- The connective of an operator, applied to two truth values. -/
def connect (op : BinaryOp) (f : Bool → Bool → Bool) (left right : Value) :
    Except EvaluationError Bool :=
  match left, right with
  | .boolean a, .boolean b => .ok (f a b)
  | _, _ => .error (operandError node op left right)

def conjoin (left right : Value) : Except EvaluationError Bool :=
  connect node .and (· && ·) left right

def disjoin (left right : Value) : Except EvaluationError Bool :=
  connect node .or (· || ·) left right

def differ (left right : Value) : Except EvaluationError Bool :=
  connect node .xor (· != ·) left right

/-- The order that an operator asks of two numbers. -/
def relation? : BinaryOp → Option (Decimal → Decimal → Bool)
  | .lessThan => some fun a b => a.below b
  | .greaterThan => some fun a b => b.below a
  | .lessOrEqual => some fun a b => a.atMost b
  | .greaterOrEqual => some fun a b => b.atMost a
  | _ => none

/-- Compares the order of two numbers. -/
def relate (op : BinaryOp) (left right : Value) : Except EvaluationError Bool :=
  match left, right, relation? op with
  | .number a, .number b, some r => .ok (r a b)
  | _, _, _ => .error (operandError node op left right)

/-- Whether a value that is no set is a member of a set. -/
def belong (element container : Value) : Except EvaluationError Bool :=
  match container with
  | .set _ =>
      if element.isSet then .error (operandError node .belongsTo element container)
      else .ok (container.contains element)
  | _ => .error (operandError node .belongsTo element container)

/-- Whether all members of one set are members of another. -/
def enclose (inner outer : Value) : Except EvaluationError Bool :=
  match inner, outer with
  | .set members, .set _ => .ok (members.all outer.contains)
  | _, _ => .error (operandError node .isSubset inner outer)

/-- Applies an operator to the values of its operands. -/
def apply (op : BinaryOp) (left right : Value) : Except EvaluationError Bool :=
  match op with
  | .and => conjoin node left right
  | .or => disjoin node left right
  | .xor => differ node left right
  | .equal => .ok (left == right)
  | .notEqual => .ok !(left == right)
  | .lessThan => relate node .lessThan left right
  | .greaterThan => relate node .greaterThan left right
  | .lessOrEqual => relate node .lessOrEqual left right
  | .greaterOrEqual => relate node .greaterOrEqual left right
  | .belongsTo => belong node left right
  | .isSubset => enclose node left right

section Laws

theorem apply_equal (left right : Value) :
    apply node .equal left right = .ok (left == right) := by
  rfl

theorem apply_notEqual (left right : Value) :
    apply node .notEqual left right = (apply node .equal left right).map not := by
  rfl

end Laws

end Operation
end Criteria
