import Criteria.Binding

/-!
# Errors of evaluation

Why a tree has no value.  A violation that a static check finds and one that shows
only in the values are the same errors here.

**Results.**
* `kind_report_ofTypeError`: a static violation is the same kind of failure, whether
  it is found before or during an evaluation.
-/

namespace Criteria

inductive EvaluationError where
  /-- A value of the wrong kind in the node, written out. -/
  | mismatch (node expected : String) (found : Kind)
  /-- The operator is not defined for a kind that stands in the node. -/
  | unsupported (node : String) (op : Operator) (found : Kind)
  /-- A member of a set, written out, has a set as its value. -/
  | nestedSet (node member : String)
  /-- A placeholder has no value. -/
  | unbound (name : String)
  | undefinedVariable (name : String)
  | undefinedFunction (name : String)
  /-- The application failed to answer for the name. -/
  | context (name message : String)
  | recursionLimit (maxDepth : Nat)
deriving DecidableEq

namespace EvaluationError

def message : EvaluationError → String
  | mismatch node expected found =>
      s!"Type mismatch in `{node}`: expected {expected}, found {found.name}"
  | unsupported node op found =>
      s!"Unsupported operation in `{node}`: {op.name} is not defined for {found.name}"
  | nestedSet node member => s!"Set member `{member}` evaluated to a set in `{node}`"
  | unbound name => s!"Cannot evaluate unbound placeholder '{name}'"
  | undefinedVariable name => s!"Undefined variable: {name}"
  | undefinedFunction name => s!"Undefined function: {name}"
  | context name message => s!"Context error in '{name}': {message}"
  | recursionLimit maxDepth => s!"Maximum recursion depth of {maxDepth} exceeded"

def code : EvaluationError → Report.Code
  | mismatch .. => .valueMismatch
  | unsupported .. => .unsupportedValue
  | nestedSet .. => .nestedSetValue
  | unbound _ => .unboundEvaluated
  | undefinedVariable _ => .contextFailed
  | undefinedFunction _ => .contextFailed
  | context .. => .contextFailed
  | recursionLimit _ => .recursionLimit

/-- What the error is about: a node, a placeholder or a name. -/
def subject : EvaluationError → Option String
  | mismatch node _ _ => some node
  | unsupported node _ _ => some node
  | nestedSet node _ => some node
  | unbound name => some name
  | undefinedVariable name => some name
  | undefinedFunction name => some name
  | context name _ => some name
  | recursionLimit _ => none

def report (e : EvaluationError) : Report :=
  .evaluation e.code e.message e.subject none

/-- Operands of a node that break the rule of its operator. -/
def ofOperandError (node : String) : OperandError → EvaluationError
  | .mismatch _ expected found => mismatch node expected found
  | .unsupported op found => unsupported node op found

/-- What an argument must be, in words. -/
def argumentText (parameter : String) (expected : Kind) : String :=
  s!"{expected.name} for argument '{parameter}'"

/-- A static violation, met in an evaluation. -/
def ofTypeError : TypeError → EvaluationError
  | .operands node cause => ofOperandError node cause
  | .argument function parameter expected found =>
      mismatch function (argumentText parameter expected) found

theorem kind_report_ofTypeError (e : TypeError) :
    (ofTypeError e).report.kind = e.report.kind := by
  rcases e with ⟨node, cause⟩ | ⟨function, parameter, expected, found⟩
  · cases cause <;> rfl
  · rfl

end EvaluationError

end Criteria
