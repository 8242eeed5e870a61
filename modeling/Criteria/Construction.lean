import Criteria.Kind
import Criteria.Report.Basic

/-!
# Errors of construction

What can be wrong with a part of an expression or with a template when it is put
together.  Each error is a cause; `ConstructionError.message` words it and
`ConstructionError.report` gives it a code.
-/

namespace Criteria

/-- What is wrong with a function template by itself. -/
inductive TemplateFault where
  /-- Two parameters have this name. -/
  | duplicateParameter (name : String)
  /-- The default of a parameter has another kind than the parameter takes. -/
  | defaultKind (parameter : String) (found declared : Kind)
deriving DecidableEq

namespace TemplateFault

def message : TemplateFault → String
  | duplicateParameter name => s!"duplicate parameter '{name}'"
  | defaultKind parameter found declared =>
      s!"default for '{parameter}' is a {found.name}, " ++
        s!"but the parameter takes {declared.name}"

end TemplateFault

/-- Why a part of an expression or a template cannot be built. -/
inductive ConstructionError where
  /-- A member of a set literal, written out, is itself a set literal. -/
  | nestedSet (member : String)
  /-- A function was given `found` arguments where it takes `least` to `most`. -/
  | arity (name : String) (least most found : Nat)
  /-- The segments joined by dots are no identifier path. -/
  | invalidPath (path : String)
  /-- The template of the named function contradicts itself. -/
  | invalidTemplate (name : String) (fault : TemplateFault)
deriving DecidableEq

/-- A number of arguments with its noun. -/
def argumentCount (n : Nat) : String :=
  if n = 1 then s!"{n} argument" else s!"{n} arguments"

/-- The range of argument counts that a function takes. -/
def arityText (least most : Nat) : String :=
  if least = most then argumentCount most else s!"{least} to " ++ argumentCount most

/-- The complaint about a call with too few or too many arguments. -/
def arityMessage (name : String) (least most found : Nat) : String :=
  s!"Function '{name}' expects {arityText least most}, but got {found}"

namespace ConstructionError

def message : ConstructionError → String
  | nestedSet member => s!"Set member {member} is itself a set"
  | arity name least most found => arityMessage name least most found
  | invalidPath path => s!"Invalid identifier path '{path}'"
  | invalidTemplate name fault =>
      s!"Invalid function template '{name}': {fault.message}"

def code : ConstructionError → Report.Code
  | nestedSet _ => .nestedSet
  | arity .. => .argumentCount
  | invalidPath _ => .invalidPath
  | invalidTemplate .. => .invalidTemplate

/-- What the error is about: a member, a function or a path. -/
def subject : ConstructionError → String
  | nestedSet member => member
  | arity name .. => name
  | invalidPath path => path
  | invalidTemplate name _ => name

def report (e : ConstructionError) : Report :=
  .construction e.code e.message (some e.subject)

end ConstructionError

end Criteria
