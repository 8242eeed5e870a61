import Criteria.Expr.Render
import Criteria.Typing.Operand

/-!
# Static checks

What can be said of the kinds in a tree before any value is known.  Constants and
operations have a kind, variables and calls have one when their template declares
it, placeholders have none.  A check asks the operand rule of every operation and
the declared kind of every parameter, the children of a node before the node.

**Results.**
* `check_eq`: a check goes through the children and then asks the rule of the root.
-/

namespace Criteria

/-- Why a tree is rejected before its evaluation. -/
inductive TypeError where
  /-- The operation, written out, has operands that break its rule. -/
  | operands (node : String) (cause : OperandError)
  /-- An argument of the function has another kind than its parameter. -/
  | argument (function parameter : String) (expected found : Kind)
deriving DecidableEq

namespace TypeError

def message : TypeError → String
  | operands node cause => s!"{cause.message} in `{node}`"
  | argument function parameter expected found =>
      s!"Argument '{parameter}' of '{function}' expects {expected.name}, " ++
        s!"found {found.name}"

def code : TypeError → Report.Code
  | operands _ (.mismatch ..) => .typeMismatch
  | operands _ (.unsupported ..) => .unsupportedOperation
  | argument .. => .argumentType

/-- What the error is about: an operation or a function. -/
def subject : TypeError → String
  | operands node _ => node
  | argument function .. => function

def report (e : TypeError) : Report :=
  .binding e.code e.message (some e.subject) none

end TypeError

namespace Expr

/-- The kind of value that a tree yields, where it is known in advance. -/
def staticKind : Expr → Option Kind
  | .constant c => some c.kind
  | .placeholder _ => none
  | .variable _ template => template.kind
  | .call _ template _ => template.returns
  | .not _ => some .boolean
  | .binary _ _ _ => some .boolean

/-- Whether a tree may yield a truth value. -/
def mayBeBoolean (e : Expr) : Bool :=
  match e.staticKind with
  | none => true
  | some k => k = .boolean

/-- The first argument whose known kind its parameter does not take. -/
def checkArguments (function : String) :
    List Parameter → List Expr → Except TypeError Unit
  | p :: ps, e :: es =>
      match p.kind, e.staticKind with
      | some expected, some found =>
          if expected = found then checkArguments function ps es
          else .error (.argument function p.name expected found)
      | _, _ => checkArguments function ps es
  | _, _ => .ok ()

/-- The rule of one node for what stands directly below it. -/
def checkNode (e : Expr) : Except TypeError Unit :=
  match e with
  | .not operand =>
      (checkNegation operand.staticKind).mapError (.operands e.render)
  | .binary op left right =>
      (op.checkKinds left.staticKind right.staticKind).mapError
        (.operands e.render)
  | .call path template arguments =>
      checkArguments path.render template.parameters arguments
  | _ => .ok ()

mutual

/-- Checks every node of a tree, the children of a node before the node. -/
def check : Expr → Except TypeError Unit
  | .constant (.set members) => do
      checkAll members
      checkNode (.constant (.set members))
  | .constant (.string s) => checkNode (.constant (.string s))
  | .constant (.number d) => checkNode (.constant (.number d))
  | .placeholder ⟨scope, name, none⟩ => checkNode (.placeholder ⟨scope, name, none⟩)
  | .placeholder ⟨scope, name, some arguments⟩ => do
      checkAll arguments
      checkNode (.placeholder ⟨scope, name, some arguments⟩)
  | .variable path template => checkNode (.variable path template)
  | .call path template arguments => do
      checkAll arguments
      checkNode (.call path template arguments)
  | .not operand => do
      check operand
      checkNode (.not operand)
  | .binary op left right => do
      check left
      check right
      checkNode (.binary op left right)

/-- Checks the trees of a list in turn. -/
def checkAll : List Expr → Except TypeError Unit
  | [] => .ok ()
  | e :: es => do
      check e
      checkAll es

end

section Laws

theorem check_eq (e : Expr) :
    check e = (do checkAll e.children; checkNode e) := by
  cases e with
  | constant c => cases c <;> rfl
  | placeholder p => obtain ⟨_, _, _ | _⟩ := p <;> rfl
  | «variable» _ _ => rfl
  | call _ _ _ => rfl
  | not operand =>
      simp only [check, children, checkAll]
      cases check operand <;> rfl
  | binary _ left right =>
      simp only [check, children, checkAll]
      cases check left <;> cases check right <;> rfl

end Laws

end Expr

end Criteria
