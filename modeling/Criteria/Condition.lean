import Criteria.Conversion.Dump
import Criteria.Evaluation

/-!
# Conditions

The front of the library: a tree that is ready to be evaluated, or to be converted,
and every failure as a report.

**Results.**
* `ofExpr_eq_ok_iff`: a tree is taken exactly when it may yield a truth value.
-/

namespace Criteria

/-- A tree that may yield a truth value, with the limits of its evaluation. -/
structure Condition where
  root : Expr
  limits : Limits

namespace Condition

/-- The report about a root that never yields a truth value. -/
def rejection (e : Expr) : Report :=
  let found := (e.staticKind.map Kind.name).getD "unknown"
  .binding .typeMismatch
    s!"Expression does not produce a truth value: found {found}"
    (some e.render) none

/-- Takes a tree whose root may yield a truth value. -/
def ofExpr (limits : Limits) (e : Expr) : Except Report Condition :=
  if e.mayBeBoolean then .ok ⟨e, limits⟩ else .error (rejection e)

/-- The truth value of a condition in a context. -/
def evaluate {σ : Type} (c : Condition) (ctx : Context σ) :
    EStateM Report σ Bool := fun s =>
  match Evaluation.evaluate c.limits ctx c.root s with
  | .ok b s' => .ok b s'
  | .error cause s' => .error cause.report s'

/-- Binds a tree and takes it as a condition with the default limits. -/
def bind (space : Namespace) (locale : Option String) (e : Expr) :
    Except Report Condition := do
  let bound ← (e.bind space locale).mapError BindingError.report
  ofExpr {} bound

theorem ofExpr_eq_ok_iff (limits : Limits) (e : Expr) (c : Condition) :
    ofExpr limits e = .ok c ↔ e.mayBeBoolean = true ∧ c = ⟨e, limits⟩ := by
  unfold ofExpr
  split
  · next h => simp [h, eq_comm]
  · next h => simp [h]

end Condition

/-- A tree that is meant to be converted. -/
structure Document where
  root : Expr

namespace Document

/-- What a document becomes. -/
def convert {σ β : Type} (d : Document) (c : Converter σ β) :
    EStateM Report σ β := fun s =>
  match d.root.convert c s with
  | .ok b s' => .ok b s'
  | .error cause s' => .error cause.report s'

/-- Binds a tree and takes it for conversion. -/
def bind (space : Namespace) (locale : Option String) (e : Expr) :
    Except Report Document := do
  let bound ← (e.bind space locale).mapError BindingError.report
  pure ⟨bound⟩

end Document

end Criteria
