import Criteria.Assignment
import Criteria.Evaluation.Limits
import Criteria.Evaluation.Operation

/-!
# Evaluation

The value of a tree in a context.  The whole tree is checked first, within the limit
of depth and before the context is asked anything.  Then the children of a node are
evaluated from left to right, always all of them, and the node is put together from
their values; declared kinds are enforced on the values that the context gives.

**Results.**
* `evaluateValue_of_checkWithin_error`: a tree that fails the first check is not
  evaluated at all.
-/

namespace Criteria

namespace Evaluation

variable {σ : Type} (limits : Limits) (ctx : Context σ)

/-- Refuses a level below the deepest one. -/
def enter (depth : Nat) : Except EvaluationError Unit :=
  if limits.maxDepth < depth then .error (.recursionLimit limits.maxDepth)
  else .ok ()

section Check

/-- The rule of one node, as an error of evaluation. -/
def checkNode (e : Expr) : Except EvaluationError Unit :=
  e.checkNode.mapError .ofTypeError

mutual

/-- Checks a tree whose root is at the given depth, within the limits. -/
def checkWithin : Expr → Nat → Except EvaluationError Unit
  | .constant (.set members), depth => do
      enter limits depth
      checkAllWithin members (depth + 1)
      checkNode (.constant (.set members))
  | .constant (.string s), depth => do
      enter limits depth
      checkNode (.constant (.string s))
  | .constant (.number d), depth => do
      enter limits depth
      checkNode (.constant (.number d))
  | .placeholder ⟨scope, name, none⟩, depth => do
      enter limits depth
      checkNode (.placeholder ⟨scope, name, none⟩)
  | .placeholder ⟨scope, name, some arguments⟩, depth => do
      enter limits depth
      checkAllWithin arguments (depth + 1)
      checkNode (.placeholder ⟨scope, name, some arguments⟩)
  | .variable path template, depth => do
      enter limits depth
      checkNode (.variable path template)
  | .call path template arguments, depth => do
      enter limits depth
      checkAllWithin arguments (depth + 1)
      checkNode (.call path template arguments)
  | .not operand, depth => do
      enter limits depth
      checkWithin operand (depth + 1)
      checkNode (.not operand)
  | .binary op left right, depth => do
      enter limits depth
      checkWithin left (depth + 1)
      checkWithin right (depth + 1)
      checkNode (.binary op left right)

/-- Checks trees whose roots are at the given depth. -/
def checkAllWithin : List Expr → Nat → Except EvaluationError Unit
  | [], _ => .ok ()
  | e :: es, depth => do
      checkWithin e depth
      checkAllWithin es depth

end

end Check

section Nodes

variable (node : Expr)

/-- Refuses a value of another kind than a template declares. -/
def expectKind (declared : Option Kind) (v : Value) : Except EvaluationError Unit :=
  match declared with
  | none => .ok ()
  | some expected =>
      if expected = v.kind then .ok ()
      else .error (.mismatch node.render expected.name v.kind)

/-- Refuses an argument value of another kind than its parameter takes. -/
def expectArgument (p : Parameter) (v : Value) : Except EvaluationError Unit :=
  match p.kind with
  | none => .ok ()
  | some expected =>
      if expected = v.kind then .ok ()
      else
        .error (.mismatch node.render
          (EvaluationError.argumentText p.name expected) v.kind)

/-- The set value of the values of members. -/
def collect (values : List Value) : Except EvaluationError Value :=
  (Value.ofMembers values).mapError fun member =>
    .nestedSet node.render member.render

/-- The value of a negation. -/
def negation (operand : Value) : Except EvaluationError Value := do
  (checkNegation (some operand.kind)).mapError (.ofOperandError node.render)
  let b ← Operation.negate node operand
  pure (.boolean b)

/-- The value of a binary operation. -/
def operation (op : BinaryOp) (left right : Value) :
    Except EvaluationError Value := do
  (op.checkKinds (some left.kind) (some right.kind)).mapError
    (.ofOperandError node.render)
  let b ← Operation.apply node op left right
  pure (.boolean b)

/-- Enters a node, works out its value and lets the context know it. -/
def visit (depth : Nat) (work : EStateM EvaluationError σ Value) :
    EStateM EvaluationError σ Value := do
  ofExcept (enter limits depth)
  let v ← work
  modify (ctx.observe node v)
  pure v

end Nodes

mutual

/-- The value of a tree whose root is at the given depth, without the first check. -/
def eval : Expr → Nat → EStateM EvaluationError σ Value
  | .constant (.string s), depth =>
      visit limits ctx (.constant (.string s)) depth (pure (.string s))
  | .constant (.number d), depth =>
      visit limits ctx (.constant (.number d)) depth (pure (.number d))
  | .constant (.set members), depth =>
      visit limits ctx (.constant (.set members)) depth do
        let values ← evalAll members (depth + 1)
        ofExcept (collect (.constant (.set members)) values)
  | .placeholder p, depth =>
      visit limits ctx (.placeholder p) depth (throw (.unbound p.render))
  | .variable path template, depth =>
      visit limits ctx (.variable path template) depth do
        let v ← ctx.lookup template
        ofExcept (expectKind (.variable path template) template.kind v)
        pure v
  | .call path template arguments, depth =>
      visit limits ctx (.call path template arguments) depth do
        let values ← evalArguments (.call path template arguments)
          template.parameters arguments (depth + 1)
        let v ← ctx.invoke template values
        ofExcept (expectKind (.call path template arguments) template.returns v)
        pure v
  | .not operand, depth =>
      visit limits ctx (.not operand) depth do
        let v ← eval operand (depth + 1)
        ofExcept (negation (.not operand) v)
  | .binary op left right, depth =>
      visit limits ctx (.binary op left right) depth do
        let a ← eval left (depth + 1)
        let b ← eval right (depth + 1)
        ofExcept (operation (.binary op left right) op a b)
termination_by structural e => e

/-- The values of trees from left to right. -/
def evalAll : List Expr → Nat → EStateM EvaluationError σ (List Value)
  | [], _ => pure []
  | e :: es, depth => do
      let v ← eval e depth
      let vs ← evalAll es depth
      pure (v :: vs)
termination_by structural es => es

/-- The values of the arguments of a call, each for its parameter.  Arguments beyond
the last parameter have no value. -/
def evalArguments (node : Expr) :
    List Parameter → List Expr → Nat → EStateM EvaluationError σ (List Value)
  | p :: ps, e :: es, depth => do
      let v ← eval e depth
      ofExcept (expectArgument node p v)
      let vs ← evalArguments node ps es depth
      pure (v :: vs)
  | _, _, _ => pure []
termination_by structural _ es => es

end

/-- The value of a tree in a context. -/
def evaluateValue (e : Expr) : EStateM EvaluationError σ Value := do
  ofExcept (checkWithin limits e 1)
  eval limits ctx e 1

/-- The truth value of a tree in a context; any other value is an error. -/
def evaluate (e : Expr) : EStateM EvaluationError σ Bool := do
  let v ← evaluateValue limits ctx e
  match v with
  | .boolean b => pure b
  | other => throw (.mismatch e.render Kind.boolean.name other.kind)

section Laws

theorem evaluateValue_of_checkWithin_error
    {e : Expr} {cause : EvaluationError}
    (h : checkWithin limits e 1 = .error cause) (s : σ) :
    evaluateValue limits ctx e s = .error cause s := by
  simp only [evaluateValue, h, ofExcept]
  rfl

end Laws

end Evaluation

end Criteria
