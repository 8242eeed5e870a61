import Criteria.Json

/-!
# Error codes

A code is a number of at most sixteen bits, written with the letters VRD and at
least four digits.  A table says of the known codes what they mean; the hundreds
of a code say in which phase the error is detected.

**Results.**
* `FailureKind.ofName?_name`: a kind of failure is determined by its name.
* `Code.ofJson?_toJson`: a stored code is read back.
-/

namespace Criteria
namespace Report

/-- What went wrong, whichever phase detects it. -/
inductive FailureKind where
  | unboundIdentifier
  | arityMismatch
  | typeMismatch
  | unsupportedOperation
  | invalidSetMember
  | invalidIdentifier
  | invalidTemplate
  | namespaceConflict
  | recursionLimit
  | context
  | conversion
  | other
deriving DecidableEq

namespace FailureKind

def all : List FailureKind :=
  [unboundIdentifier, arityMismatch, typeMismatch, unsupportedOperation,
    invalidSetMember, invalidIdentifier, invalidTemplate, namespaceConflict,
    recursionLimit, context, conversion, other]

def name : FailureKind → String
  | unboundIdentifier => "UnboundIdentifier"
  | arityMismatch => "ArityMismatch"
  | typeMismatch => "TypeMismatch"
  | unsupportedOperation => "UnsupportedOperation"
  | invalidSetMember => "InvalidSetMember"
  | invalidIdentifier => "InvalidIdentifier"
  | invalidTemplate => "InvalidTemplate"
  | namespaceConflict => "NamespaceConflict"
  | recursionLimit => "RecursionLimit"
  | context => "Context"
  | conversion => "Conversion"
  | other => "Other"

/-- The words for a kind of failure in running text. -/
def text : FailureKind → String
  | unboundIdentifier => "unbound identifier"
  | arityMismatch => "arity mismatch"
  | typeMismatch => "type mismatch"
  | unsupportedOperation => "unsupported operation"
  | invalidSetMember => "invalid set member"
  | invalidIdentifier => "invalid identifier"
  | invalidTemplate => "invalid template"
  | namespaceConflict => "namespace conflict"
  | recursionLimit => "recursion limit"
  | context => "context error"
  | conversion => "conversion error"
  | other => "error"

def ofName? (s : String) : Option FailureKind :=
  all.find? (·.name = s)

theorem ofName?_name (k : FailureKind) : ofName? k.name = some k := by
  cases k <;> decide

end FailureKind

/-- The number of an error. -/
structure Code where
  number : UInt16
deriving DecidableEq

/-- What the table says of a code. -/
structure CodeInfo where
  description : String
  kind : FailureKind
  help : Option String

namespace Code

section Known

def nestedSet : Code := ⟨1⟩
def argumentCount : Code := ⟨2⟩
def invalidPath : Code := ⟨3⟩
def invalidTemplate : Code := ⟨4⟩
def unbound : Code := ⟨100⟩
def callArity : Code := ⟨101⟩
def typeMismatch : Code := ⟨102⟩
def unsupportedOperation : Code := ⟨103⟩
def argumentType : Code := ⟨104⟩
def valueMismatch : Code := ⟨200⟩
def unsupportedValue : Code := ⟨201⟩
def nestedSetValue : Code := ⟨202⟩
def unboundEvaluated : Code := ⟨203⟩
def contextFailed : Code := ⟨204⟩
def recursionLimit : Code := ⟨205⟩
def unboundConverted : Code := ⟨300⟩
def converterFailed : Code := ⟨301⟩
def duplicateGlobal : Code := ⟨400⟩
def duplicateSpelling : Code := ⟨401⟩

end Known

/-- What is known of a code; an unknown code has no help. -/
def info (c : Code) : CodeInfo :=
  match c.number.toNat with
  | 1 => ⟨"Nested set in set literal", .invalidSetMember,
      some "Sets may only contain strings, numbers, variables, functions or operations"⟩
  | 2 => ⟨"Invalid argument count", .arityMismatch, none⟩
  | 3 => ⟨"Empty identifier path", .invalidIdentifier, none⟩
  | 4 => ⟨"Invalid function template", .invalidTemplate, none⟩
  | 100 => ⟨"Unbound identifier", .unboundIdentifier,
      some "Check that the identifier is registered in the namespace for this locale"⟩
  | 101 => ⟨"Invalid argument count", .arityMismatch, none⟩
  | 102 => ⟨"Type mismatch", .typeMismatch, none⟩
  | 103 => ⟨"Unsupported operation", .unsupportedOperation, none⟩
  | 104 => ⟨"Invalid argument type", .typeMismatch, none⟩
  | 200 => ⟨"Type mismatch", .typeMismatch, none⟩
  | 201 => ⟨"Unsupported operation", .unsupportedOperation, none⟩
  | 202 => ⟨"Nested set value", .invalidSetMember, none⟩
  | 203 => ⟨"Unbound placeholder evaluated", .unboundIdentifier,
      some "Bind the tree against a namespace before evaluating it"⟩
  | 204 => ⟨"Context failed", .context, none⟩
  | 205 => ⟨"Recursion limit exceeded", .recursionLimit, none⟩
  | 300 => ⟨"Unbound placeholder converted", .unboundIdentifier,
      some "Bind the tree against a namespace before converting it"⟩
  | 301 => ⟨"Converter failed", .conversion, none⟩
  | 400 => ⟨"Duplicate global name", .namespaceConflict, none⟩
  | 401 => ⟨"Duplicate localized name", .namespaceConflict, none⟩
  | _ => ⟨"Unknown error", .other, none⟩

def kind (c : Code) : FailureKind :=
  c.info.kind

def help (c : Code) : Option String :=
  c.info.help

/-- The written form of a code. -/
def render (c : Code) : String :=
  let ds := Nat.toDigits 10 c.number.toNat
  "VRD" ++ String.ofList (List.replicate (4 - ds.length) '0' ++ ds)

/-- Whether a code lies between two numbers, the first included. -/
def within (c : Code) (low high : Nat) : Bool :=
  low ≤ c.number.toNat && c.number.toNat < high

def isConstruction (c : Code) : Bool := c.within 1 100
def isBinding (c : Code) : Bool := c.within 100 200
def isEvaluation (c : Code) : Bool := c.within 200 300
def isConversion (c : Code) : Bool := c.within 300 400
def isRegistration (c : Code) : Bool := c.within 400 500

/-- A code is stored as its number. -/
def toJson (c : Code) : Json :=
  .integer c.number.toNat

/-- The code that a document stores. -/
def ofJson? (j : Json) : Option Code :=
  (j.natural? 65536).map fun n => ⟨UInt16.ofNat n⟩

theorem ofJson?_toJson (c : Code) : ofJson? c.toJson = some c := by
  have h : c.number.toNat < 65536 := c.number.toNat_lt
  simp [ofJson?, toJson, Json.natural?, h]

end Code

end Report
end Criteria
