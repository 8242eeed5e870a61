import Criteria.Report.Code

/-!
# Diagnostics

A message for the author of a condition: how severe it is, its code and words, the
part of the condition it is about and a hint.  Diagnostics are stored as JSON
objects, and read also from arrays of their values.

**Results.**
* `Diagnostic.ofJson?_toJson`: a stored diagnostic is read back.
* `Diagnostic.ofJson?_array`: an array stores what the object with its items as
  fields stores.
-/

namespace Criteria
namespace Report

inductive Severity where
  | error
  | warning
deriving DecidableEq

namespace Severity

def name : Severity → String
  | error => "Error"
  | warning => "Warning"

/-- The word that opens a diagnostic. -/
def text : Severity → String
  | error => "error"
  | warning => "warning"

def ofName? (s : String) : Option Severity :=
  [error, warning].find? (·.name = s)

/-- The severity that a document stores: its name, or an object whose one field has
that name and is null. -/
def ofJson? : Json → Option Severity
  | .string s => ofName? s
  | .object [(name, .null)] => ofName? name
  | _ => none

theorem ofJson?_name (s : Severity) : ofJson? (.string s.name) = some s := by
  cases s <;> decide

end Severity

structure Diagnostic where
  severity : Severity
  code : Code
  message : String
  /-- The part of the condition it is about, written out. -/
  node : Option String
  /-- A hint. -/
  help : Option String
deriving DecidableEq

namespace Diagnostic

/-- A diagnostic as one line of text; the hint is not part of it. -/
def render (d : Diagnostic) : String :=
  s!"{d.severity.text}: {d.code.render} - {d.message}" ++
    match d.node with
    | some node => s!" in `{node}`"
    | none => ""

def toJson (d : Diagnostic) : Json :=
  .object
    [("severity", .string d.severity.name), ("code", d.code.toJson),
      ("message", .string d.message), ("node", .ofOption d.node),
      ("help", .ofOption d.help)]

/-- The diagnostic with stored values; the node and the hint may be missing. -/
def ofValues? (severity code message : Json) (node help : Option Json) :
    Option Diagnostic := do
  let severity ← Severity.ofJson? severity
  let code ← Code.ofJson? code
  let message ← message.string?
  let node ← Json.optionalString? node
  let help ← Json.optionalString? help
  pure ⟨severity, code, message, node, help⟩

/-- The diagnostic that a document stores.  An object has its values as fields:
severity, code and message are needed, the node and the hint may be missing or null,
other fields are ignored.  An array has all five values in this order. -/
def ofJson? : Json → Option Diagnostic
  | .array [severity, code, message, node, help] =>
      ofValues? severity code message (some node) (some help)
  | j => do
      ofValues? (← j.field? "severity") (← j.field? "code") (← j.field? "message")
        (j.field? "node") (j.field? "help")

theorem ofJson?_toJson (d : Diagnostic) : ofJson? d.toJson = some d := by
  obtain ⟨severity, code, message, node, help⟩ := d
  cases node <;> cases help <;>
    simp [ofJson?, ofValues?, toJson, Json.field?, List.lookup_cons, Severity.ofJson?_name,
      Code.ofJson?_toJson, Json.string?, Json.optionalString?, Json.ofOption]

theorem ofJson?_array (severity code message node help : Json) :
    ofJson? (.array [severity, code, message, node, help]) =
      ofJson? (.object
        [("severity", severity), ("code", code), ("message", message), ("node", node),
          ("help", help)]) := by
  simp [ofJson?, Json.field?, List.lookup_cons]

end Diagnostic

end Report
end Criteria
