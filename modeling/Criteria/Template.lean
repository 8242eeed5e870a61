import Criteria.Path

/-!
# Templates

A template describes a variable or a function that an application offers to
conditions: its qualified name, the kinds it takes and the kind it yields.  The
optional parameters of a function come after the required ones and have constant
defaults.  Since a constant set may hold any expression, constants and function
templates are stated over the type `α` of expressions.

**Results.**
* `FunctionTemplate.length_parameters`: the parameters are as many as the most
  arguments a call may have.
* `FunctionTemplate.checkArity_eq_ok_iff`: a count passes exactly when it lies in
  the range.
-/

namespace Criteria

/-- A text, a number, or a set of expressions. -/
inductive Constant (α : Type) where
  | string (s : String)
  | number (d : Decimal)
  | set (members : List α)

namespace Constant

variable {α : Type}

def kind : Constant α → Kind
  | string _ => .string
  | number _ => .number
  | set _ => .set

end Constant

/-- A parameter; without a kind it takes any value. -/
structure Parameter where
  name : String
  kind : Option Kind
deriving DecidableEq

/-- A variable; without a kind it may have any value. -/
structure VariableTemplate where
  qualifiedName : Path
  kind : Option Kind
deriving DecidableEq

namespace VariableTemplate

/-- A variable of any kind with this global name. -/
def named (name : String) : Except ConstructionError VariableTemplate := do
  let path ← Path.single name
  pure ⟨path, none⟩

/-- The global name. -/
def name (t : VariableTemplate) : String :=
  t.qualifiedName.name

end VariableTemplate

/-- A function with its parameters in the order of a call. -/
structure FunctionTemplate (α : Type) where
  qualifiedName : Path
  required : List Parameter
  /-- The parameters a call may leave out, with their defaults. -/
  optional : List (Parameter × Constant α)
  returns : Option Kind

namespace FunctionTemplate

variable {α : Type}

/-- A function without parameters with this global name. -/
def named (name : String) : Except ConstructionError (FunctionTemplate α) := do
  let path ← Path.single name
  pure ⟨path, [], [], none⟩

/-- The global name. -/
def name (t : FunctionTemplate α) : String :=
  t.qualifiedName.name

/-- All parameters, in the order of a call. -/
def parameters (t : FunctionTemplate α) : List Parameter :=
  t.required ++ t.optional.map (·.1)

/-- The defaults of the optional parameters, in the order of a call. -/
def defaults (t : FunctionTemplate α) : List (Constant α) :=
  t.optional.map (·.2)

/-- The fewest arguments of a call. -/
def least (t : FunctionTemplate α) : Nat :=
  t.required.length

/-- The most arguments of a call. -/
def most (t : FunctionTemplate α) : Nat :=
  t.required.length + t.optional.length

/-- Whether a call may have this many arguments. -/
def checkArity (t : FunctionTemplate α) (found : Nat) :
    Except ConstructionError Unit :=
  if found < t.least ∨ t.most < found then
    .error (.arity t.qualifiedName.render t.least t.most found)
  else .ok ()

/-- The first name that already stands before it in the list. -/
def firstRepeated? (earlier : List String) : List String → Option String
  | [] => none
  | n :: ns => if n ∈ earlier then some n else firstRepeated? (earlier ++ [n]) ns

/-- The first default whose kind its parameter does not take. -/
def wrongDefault? : List (Parameter × Constant α) → Option TemplateFault
  | [] => none
  | (p, c) :: rest =>
      match p.kind with
      | none => wrongDefault? rest
      | some declared =>
          if declared = c.kind then wrongDefault? rest
          else some (.defaultKind p.name c.kind declared)

/-- What is wrong with a template: a repeated parameter name, or else a default
of the wrong kind. -/
def fault? (t : FunctionTemplate α) : Option TemplateFault :=
  match firstRepeated? [] (t.parameters.map (·.name)) with
  | some n => some (.duplicateParameter n)
  | none => wrongDefault? t.optional

/-- Accepts a template that has no fault. -/
def validate (t : FunctionTemplate α) : Except ConstructionError Unit :=
  match t.fault? with
  | some fault => .error (.invalidTemplate t.qualifiedName.render fault)
  | none => .ok ()

theorem length_parameters (t : FunctionTemplate α) :
    t.parameters.length = t.most := by
  simp [parameters, most]

theorem length_defaults (t : FunctionTemplate α) :
    t.defaults.length = t.most - t.least := by
  simp [defaults, most, least]

theorem least_le_most (t : FunctionTemplate α) : t.least ≤ t.most := by
  simp [least, most]

theorem checkArity_eq_ok_iff (t : FunctionTemplate α) (found : Nat) :
    t.checkArity found = .ok () ↔ t.least ≤ found ∧ found ≤ t.most := by
  unfold checkArity
  split <;> simp <;> omega

end FunctionTemplate

end Criteria
