import Criteria.Distinct
import Criteria.Expr.Equality
import Criteria.Expr.Render

/-!
# Building expressions

The ways to build a tree that keep its invariants.  A set literal keeps the first of
equal members and has no set literal as a member; a call has one argument for each
parameter of its template, the omitted ones being filled in from the defaults.

**Results.**
* `length_complete`: a completed argument list has one entry for each parameter.
* `take_complete`: the given arguments come first and are unchanged.
-/

namespace Criteria

namespace FunctionTemplate

/-- The arguments of a call followed by the defaults of the parameters it leaves
out, provided that the template takes so many arguments. -/
def complete (t : FunctionTemplate Expr) (arguments : List Expr) :
    Except ConstructionError (List Expr) := do
  t.checkArity arguments.length
  let omitted := t.defaults.drop (arguments.length - t.least)
  pure (arguments ++ omitted.map Expr.constant)

theorem complete_eq_ok_iff
    (t : FunctionTemplate Expr) (arguments out : List Expr) :
    t.complete arguments = .ok out ↔
      (t.least ≤ arguments.length ∧ arguments.length ≤ t.most) ∧
        out = arguments ++
          (t.defaults.drop (arguments.length - t.least)).map Expr.constant := by
  rw [← checkArity_eq_ok_iff]
  unfold complete
  cases h : t.checkArity arguments.length with
  | error e => simp [bind, Except.bind]
  | ok u => simp [bind, Except.bind, pure, Except.pure, eq_comm]

theorem length_complete
    {t : FunctionTemplate Expr} {arguments out : List Expr}
    (h : t.complete arguments = .ok out) :
    out.length = t.parameters.length := by
  obtain ⟨⟨hl, hm⟩, rfl⟩ := (complete_eq_ok_iff t arguments out).mp h
  have := t.least_le_most
  simp only [List.length_append, List.length_map, List.length_drop,
    length_defaults, length_parameters]
  omega

theorem take_complete
    {t : FunctionTemplate Expr} {arguments out : List Expr}
    (h : t.complete arguments = .ok out) :
    out.take arguments.length = arguments := by
  obtain ⟨-, rfl⟩ := (complete_eq_ok_iff t arguments out).mp h
  simp

end FunctionTemplate

namespace Expr

/-- The set literal of distinct members, none of them a set literal. -/
def ofMembers (members : List Expr) : Except ConstructionError Expr :=
  match Distinct.collect isSet members with
  | .ok kept => .ok (set kept)
  | .error member => .error (.nestedSet member.render)

/-- The placeholder that a dotted text writes. -/
def ofName (path : String) : Except ConstructionError Expr := do
  let name ← Path.parse path
  pure (.placeholder ⟨[], name, none⟩)

/-- The placeholder for a call of the function that a dotted text names. -/
def ofCall (path : String) (arguments : List Expr) :
    Except ConstructionError Expr := do
  let name ← Path.parse path
  pure (.placeholder ⟨[], name, some arguments⟩)

/-- A variable under its qualified name. -/
def ofVariable (template : VariableTemplate) : Expr :=
  .variable template.qualifiedName template

/-- The call of a function, bound from a path, with the defaults filled in. -/
def boundCall
    (path : Path) (template : FunctionTemplate Expr) (arguments : List Expr) :
    Except ConstructionError Expr := do
  let complete ← template.complete arguments
  pure (.call path template complete)

/-- The call of a function under its qualified name. -/
def ofFunction (template : FunctionTemplate Expr) (arguments : List Expr) :
    Except ConstructionError Expr :=
  boundCall template.qualifiedName template arguments

end Expr

end Criteria
