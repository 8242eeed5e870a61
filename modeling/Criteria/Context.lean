import Criteria.Evaluation.Error
import Criteria.Value

/-!
# Contexts

A context answers for the application: it gives variables their values and carries
out calls.  It may keep a state `σ`, from one question to the next, and it may fail.
A context is also told of every value that an evaluation arrives at, which it may
put into its state.

The trail of an evaluation is the list of the questions it asked and of the values it
arrived at, both in order.
-/

namespace Criteria

/-- An application that answers in a state. -/
structure Context (σ : Type) where
  /-- The value of a variable. -/
  lookup : VariableTemplate → EStateM EvaluationError σ Value
  /-- The result of a call with these argument values. -/
  invoke : FunctionTemplate Expr → List Value → EStateM EvaluationError σ Value
  /-- The state after learning the value of a tree. -/
  observe : Expr → Value → σ → σ := fun _ _ s => s

/-- A question to a context. -/
inductive Query where
  | variable (template : VariableTemplate)
  | call (template : FunctionTemplate Expr) (arguments : List Value)

namespace Query

/-- The text of a question: a qualified name, and the arguments of a call. -/
def render : Query → String
  | .variable t => t.qualifiedName.render
  | .call t arguments =>
      t.qualifiedName.render ++ "(" ++ Value.renderList arguments ++ ")"

end Query

/-- The state of a context together with what has happened so far. -/
structure Trail (σ : Type) where
  state : σ
  /-- The questions asked so far, the latest first. -/
  asked : List Query
  /-- The trees evaluated so far and their values, the latest first. -/
  found : List (Expr × Value)

namespace Trail

variable {σ α : Type}

/-- The trail before anything has happened. -/
def start (s : σ) : Trail σ :=
  ⟨s, [], []⟩

/-- The questions asked, in order. -/
def queries (t : Trail σ) : List Query :=
  t.asked.reverse

/-- The trees evaluated and their values, in order. -/
def values (t : Trail σ) : List (Expr × Value) :=
  t.found.reverse

/-- Runs an action on the state that a trail holds. -/
def onState (x : EStateM EvaluationError σ α) :
    EStateM EvaluationError (Trail σ) α := fun t =>
  match x t.state with
  | .ok a s => .ok a { t with state := s }
  | .error e s => .error e { t with state := s }

/-- What is said of the values on a trail. -/
def journal (t : Trail σ) : List Journal.Entry :=
  t.values.map fun p =>
    ⟨.trace, s!"Evaluated `{p.1.render}` to {p.2.render}"⟩

end Trail

namespace Context

variable {σ : Type}

/-- The context that answers in the same way and keeps a trail. -/
def trail (c : Context σ) : Context (Trail σ) where
  lookup template := fun t =>
    Trail.onState (c.lookup template)
      { t with asked := .variable template :: t.asked }
  invoke template arguments := fun t =>
    Trail.onState (c.invoke template arguments)
      { t with asked := .call template arguments :: t.asked }
  observe e v t :=
    { t with state := c.observe e v t.state, found := (e, v) :: t.found }

end Context

/-- The state in which an action ends, well or badly. -/
def finalState {ε σ α : Type} : EStateM.Result ε σ α → σ
  | .ok _ s => s
  | .error _ s => s

end Criteria
