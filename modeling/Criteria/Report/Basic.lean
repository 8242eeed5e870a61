import Criteria.Report.Diagnostic

/-!
# Reports

The one form in which every failure leaves the library: the phase that detected
it, a code, and words.  What else a report carries depends on the phase: a
construction names the offending part, a registration and a conversion give a
context, and binding and evaluation may do both.
-/

namespace Criteria

namespace Report

/-- The stages in which a failure may be detected. -/
inductive Phase where
  | construction
  | registration
  | binding
  | evaluation
  | conversion
deriving DecidableEq

namespace Phase

def all : List Phase :=
  [construction, registration, binding, evaluation, conversion]

def name : Phase → String
  | construction => "Construction"
  | registration => "Namespace"
  | binding => "Binding"
  | evaluation => "Evaluation"
  | conversion => "Conversion"

def ofName? (s : String) : Option Phase :=
  all.find? (·.name = s)

end Phase

/-- All that may be known of a failure before its phase is settled. -/
structure Finding where
  code : Code
  message : String
  node : Option String := none
  context : Option String := none

end Report

/-- A failure with its phase and what a report of that phase carries. -/
inductive Report where
  | construction (code : Report.Code) (message : String) (node : Option String)
  | registration (code : Report.Code) (message : String) (context : Option String)
  | binding (code : Report.Code) (message : String) (node context : Option String)
  | evaluation (code : Report.Code) (message : String) (node context : Option String)
  | conversion (code : Report.Code) (message : String) (context : Option String)
deriving DecidableEq

namespace Report

/-- The report of a phase about a finding; what the phase does not carry is
dropped. -/
def ofFinding (f : Finding) : Phase → Report
  | .construction => construction f.code f.message f.node
  | .registration => registration f.code f.message f.context
  | .binding => binding f.code f.message f.node f.context
  | .evaluation => evaluation f.code f.message f.node f.context
  | .conversion => conversion f.code f.message f.context

def phase : Report → Phase
  | construction .. => .construction
  | registration .. => .registration
  | binding .. => .binding
  | evaluation .. => .evaluation
  | conversion .. => .conversion

def code : Report → Code
  | construction code .. => code
  | registration code .. => code
  | binding code .. => code
  | evaluation code .. => code
  | conversion code .. => code

def message : Report → String
  | construction _ message _ => message
  | registration _ message _ => message
  | binding _ message _ _ => message
  | evaluation _ message _ _ => message
  | conversion _ message _ => message

/-- The offending part of the condition, written out. -/
def node : Report → Option String
  | construction _ _ node => node
  | registration .. => none
  | binding _ _ node _ => node
  | evaluation _ _ node _ => node
  | conversion .. => none

def context : Report → Option String
  | construction .. => none
  | registration _ _ context => context
  | binding _ _ _ context => context
  | evaluation _ _ _ context => context
  | conversion _ _ context => context

def kind (r : Report) : FailureKind :=
  r.code.kind

/-- Whether the condition itself is at fault, and not the data it meets. -/
def isMalformed (r : Report) : Bool :=
  r.phase = .construction || r.phase = .binding

def render (r : Report) : String :=
  s!"{r.code.render}: {r.message}"

/-- The diagnostic of a report.  Its hint is the context, or else the help that
belongs to the code. -/
def diagnostic (r : Report) : Diagnostic :=
  ⟨.error, r.code, r.message, r.node, r.context <|> r.code.help⟩

end Report

end Criteria
