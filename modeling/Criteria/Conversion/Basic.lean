import Criteria.Expr.Render
import Criteria.Journal
import Criteria.Report.Basic

/-!
# Conversion

A converter turns a bound tree into something else, from the leaves up: it has one
case for each kind of node and for each operator, and each case gets what the children
of the node have become.  It may keep a state and it may fail; a failure ends the
conversion, and so does a placeholder, whose arguments are not looked at.  A converter
is told of each node before its children, which it may put into its state.
-/

namespace Criteria

/-- Why a tree cannot be converted. -/
inductive ConversionError where
  /-- The placeholder, written out, is not bound. -/
  | unbound (name : String)
  /-- A case of the converter failed. -/
  | failed (message : String)
deriving DecidableEq

namespace ConversionError

def message : ConversionError → String
  | unbound name => s!"Cannot convert unbound placeholder '{name}'"
  | failed message => s!"Conversion failed: {message}"

def report (e : ConversionError) : Report :=
  match e with
  | unbound name =>
      .conversion .unboundConverted e.message
        (some s!"placeholder '{name}' must be bound before conversion")
  | failed _ => .conversion .converterFailed e.message none

end ConversionError

/-- What nodes become: a `β` made in a state `σ`. -/
structure Converter (σ β : Type) where
  string : String → EStateM ConversionError σ β
  number : Decimal → EStateM ConversionError σ β
  set : List β → EStateM ConversionError σ β
  /-- A variable, with the path it was bound from. -/
  reference : Path → VariableTemplate → EStateM ConversionError σ β
  /-- A call, with the path it was bound from and its converted arguments. -/
  call : Path → FunctionTemplate Expr → List β → EStateM ConversionError σ β
  negation : β → EStateM ConversionError σ β
  and : β → β → EStateM ConversionError σ β
  or : β → β → EStateM ConversionError σ β
  xor : β → β → EStateM ConversionError σ β
  equal : β → β → EStateM ConversionError σ β
  notEqual : β → β → EStateM ConversionError σ β
  lessThan : β → β → EStateM ConversionError σ β
  greaterThan : β → β → EStateM ConversionError σ β
  lessOrEqual : β → β → EStateM ConversionError σ β
  greaterOrEqual : β → β → EStateM ConversionError σ β
  /-- A membership test, with the converted element and the converted set. -/
  belongsTo : β → β → EStateM ConversionError σ β
  /-- An inclusion, with the converted subset and the converted superset. -/
  isSubset : β → β → EStateM ConversionError σ β
  /-- The state after coming to a node. -/
  enter : Expr → σ → σ := fun _ s => s

namespace Converter

variable {σ β : Type}

/-- The case of an operator. -/
def operation (c : Converter σ β) : BinaryOp → β → β → EStateM ConversionError σ β
  | .and, left, right => c.and left right
  | .or, left, right => c.or left right
  | .xor, left, right => c.xor left right
  | .equal, left, right => c.equal left right
  | .notEqual, left, right => c.notEqual left right
  | .lessThan, left, right => c.lessThan left right
  | .greaterThan, left, right => c.greaterThan left right
  | .lessOrEqual, left, right => c.lessOrEqual left right
  | .greaterOrEqual, left, right => c.greaterOrEqual left right
  | .belongsTo, left, right => c.belongsTo left right
  | .isSubset, left, right => c.isSubset left right

/-- The converter that works in the same way and lists the nodes it comes to, the
latest first. -/
def listing (c : Converter σ β) : Converter (σ × List Expr) β where
  string s := onFirst (c.string s)
  number n := onFirst (c.number n)
  set members := onFirst (c.set members)
  reference path template := onFirst (c.reference path template)
  call path template arguments := onFirst (c.call path template arguments)
  negation operand := onFirst (c.negation operand)
  and left right := onFirst (c.and left right)
  or left right := onFirst (c.or left right)
  xor left right := onFirst (c.xor left right)
  equal left right := onFirst (c.equal left right)
  notEqual left right := onFirst (c.notEqual left right)
  lessThan left right := onFirst (c.lessThan left right)
  greaterThan left right := onFirst (c.greaterThan left right)
  lessOrEqual left right := onFirst (c.lessOrEqual left right)
  greaterOrEqual left right := onFirst (c.greaterOrEqual left right)
  belongsTo element set := onFirst (c.belongsTo element set)
  isSubset subset superset := onFirst (c.isSubset subset superset)
  enter e s := (c.enter e s.1, e :: s.2)
where
  /-- Runs an action on the first part of a state. -/
  onFirst {ε τ α : Type} (x : EStateM ε σ α) : EStateM ε (σ × τ) α := fun s =>
    match x s.1 with
    | .ok a s' => .ok a (s', s.2)
    | .error e s' => .error e (s', s.2)

/-- What is said when a conversion comes to a node. -/
def entered (e : Expr) : Journal.Entry :=
  ⟨.trace, s!"Converting `{e.render}`"⟩

/-- What is said in a conversion that came to these nodes, the latest first. -/
def journal (visited : List Expr) : List Journal.Entry :=
  visited.reverse.map entered

end Converter

namespace Expr

variable {σ β : Type} (c : Converter σ β)

mutual

/-- What a tree becomes. -/
def convert : Expr → EStateM ConversionError σ β
  | .constant (.string s) => do
      modify (c.enter (.constant (.string s)))
      c.string s
  | .constant (.number d) => do
      modify (c.enter (.constant (.number d)))
      c.number d
  | .constant (.set members) => do
      modify (c.enter (.constant (.set members)))
      let converted ← convertAll members
      c.set converted
  | .placeholder p => do
      modify (c.enter (.placeholder p))
      throw (.unbound p.render)
  | .variable path template => do
      modify (c.enter (.variable path template))
      c.reference path template
  | .call path template arguments => do
      modify (c.enter (.call path template arguments))
      let converted ← convertAll arguments
      c.call path template converted
  | .not operand => do
      modify (c.enter (.not operand))
      let converted ← convert operand
      c.negation converted
  | .binary op left right => do
      modify (c.enter (.binary op left right))
      let a ← convert left
      let b ← convert right
      c.operation op a b

/-- What trees become, from left to right. -/
def convertAll : List Expr → EStateM ConversionError σ (List β)
  | [] => pure []
  | e :: es => do
      let first ← convert e
      let rest ← convertAll es
      pure (first :: rest)

end

end Expr

end Criteria
