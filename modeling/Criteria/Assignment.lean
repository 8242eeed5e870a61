import Criteria.Context

/-!
# Assignments

The plain context: values for variables and functions for calls, under the qualified
names of their templates.

**Results.**
* `valueOf?_setVariable`: a new value replaces the old one and no other.
-/

namespace Criteria

/-- What a registered function does with its argument values. -/
abbrev ValueFunction : Type :=
  List Value → Except EvaluationError Value

/-- Values and functions under dotted names, the latest first. -/
structure Assignment where
  values : List (String × Value)
  functions : List (String × ValueFunction)

namespace Assignment

def empty : Assignment :=
  ⟨[], []⟩

def setVariable (a : Assignment) (name : String) (v : Value) : Assignment :=
  { a with values := (name, v) :: a.values }

def setFunction (a : Assignment) (name : String) (f : ValueFunction) : Assignment :=
  { a with functions := (name, f) :: a.functions }

def valueOf? (a : Assignment) (name : String) : Option Value :=
  a.values.lookup name

def functionOf? (a : Assignment) (name : String) : Option ValueFunction :=
  a.functions.lookup name

/-- The value of a variable under its qualified name. -/
def value (a : Assignment) (t : VariableTemplate) : Except EvaluationError Value :=
  let name := t.qualifiedName.render
  match a.valueOf? name with
  | some v => .ok v
  | none => .error (.undefinedVariable name)

/-- The result of the function under the qualified name of a template. -/
def result (a : Assignment) (t : FunctionTemplate Expr) (arguments : List Value) :
    Except EvaluationError Value :=
  let name := t.qualifiedName.render
  match a.functionOf? name with
  | some f => f arguments
  | none => .error (.undefinedFunction name)

end Assignment

/-- An outcome that does not touch the state. -/
def ofExcept {ε σ α : Type} : Except ε α → EStateM ε σ α
  | .ok a => pure a
  | .error e => throw e

namespace Assignment

/-- The context that answers from an assignment and keeps no state of its own. -/
def context {σ : Type} (a : Assignment) : Context σ where
  lookup t := ofExcept (a.value t)
  invoke t arguments := ofExcept (a.result t arguments)

theorem valueOf?_setVariable
    (a : Assignment) (name other : String) (v : Value) :
    (a.setVariable name v).valueOf? other =
      if other = name then some v else a.valueOf? other := by
  by_cases h : other = name
  · simp [setVariable, valueOf?, h]
  · have hb : (other == name) = false := by simp [h]
    simp [setVariable, valueOf?, List.lookup_cons, h, hb]

end Assignment

end Criteria
