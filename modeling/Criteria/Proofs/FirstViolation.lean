import Criteria.Proofs.Depth
import Criteria.Proofs.Unchanged

/-!
# The first violation

The static check asks the rule of every node, the children of a node before the node, and
stops at the first node that breaks its rule.  Written out, it goes through the trees inside
a tree in the order of evaluation.  The check before an evaluation is a walk of its own,
which counts the levels as it goes down.  In a tree that is not too high the counting never
matters, so the two stop at the same node, for the same violation; and the failure is of one
kind, whichever of them reports it.

**Results.**
* `check_eq_forM`: the check asks the nodes in the order of evaluation.
* `check_eq_error_iff`: it fails as the first node that breaks its rule.
* `checkWithin_eq_check`: within the limit, the check before an evaluation is the check.
* `checkWithin_agrees`: the two checks accept the same trees and find the same violation.
-/

namespace Criteria

open Outcome

namespace Expr

variable {e t : Expr} {violation : TypeError}

/-- A violation is that of the first node, in the order of evaluation, that breaks its
rule. -/
def FirstViolation (e : Expr) (violation : TypeError) : Prop :=
  ∃ before t after, e.postorder = before ++ t :: after ∧
    (∀ b ∈ before, b.checkNode = .ok ()) ∧ t.checkNode = .error violation

theorem checkAll_eq_forM_postorder {es : List Expr}
    (h : ∀ e ∈ es, e.check = forM e.postorder checkNode) :
    checkAll es = forM (postorderAll es) checkNode := by
  induction es with
  | nil => rfl
  | cons e es ih =>
      obtain ⟨he, hes⟩ := List.forall_mem_cons.mp h
      rw [checkAll, postorderAll, List.forM_append, he, ih hes]

/-- The check asks the rule of one node after the other, in the order of evaluation. -/
theorem check_eq_forM (e : Expr) : e.check = forM e.postorder checkNode := by
  induction e using child_induction with
  | node e ih =>
      rw [check_eq, postorder_eq, List.forM_append, List.forM_cons, List.forM_nil,
        bind_pure_unit, checkAll_eq_forM_postorder ih]

theorem check_eq_error_iff : e.check = .error violation ↔ e.FirstViolation violation := by
  rw [check_eq_forM, forM_eq_error_iff]
  exact Iff.rfl

/-- A tree that passes the check keeps the rules in every node. -/
theorem everywhere_checkNode_of_check (h : e.check = .ok ()) :
    e.Everywhere fun t => t.checkNode = .ok () := by
  induction e using child_induction with
  | node e ih =>
      obtain ⟨hchildren, hnode⟩ := Evaluation.check_eq_ok_iff.mp h
      exact everywhere_iff.mpr ⟨hnode, fun c hc => ih c hc (hchildren c hc)⟩

end Expr

namespace Evaluation

variable {limits : Limits} {e : Expr} {depth : Nat} {cause : EvaluationError}

theorem checkAllWithin_eq_checkAll {es : List Expr}
    (h : ∀ e ∈ es, checkWithin limits e depth = e.check.mapError .ofTypeError) :
    checkAllWithin limits es depth = (Expr.checkAll es).mapError .ofTypeError := by
  induction es with
  | nil => rfl
  | cons e es ih =>
      obtain ⟨he, hes⟩ := List.forall_mem_cons.mp h
      rw [checkAllWithin, Expr.checkAll, mapError_bind, he, ih hes]

/-- Of a tree that is not too high, the check before an evaluation reports what the check
reports. -/
theorem checkWithin_eq_check (within : e.height + depth ≤ limits.maxDepth + 1) :
    checkWithin limits e depth = e.check.mapError .ofTypeError := by
  induction e using Expr.child_induction generalizing depth with
  | node e ih =>
      obtain ⟨hdepth, hchildren⟩ := child_within within
      have hall := checkAllWithin_eq_checkAll fun c hc => ih c hc (hchildren c hc)
      have henter : enter limits depth = pure () := enter_eq_ok_iff.mpr hdepth
      rw [checkWithin_eq, henter, pure_bind, hall, Expr.check_eq, mapError_bind]
      rfl

/-- A tree that passes the check is rejected before its evaluation only for its height. -/
theorem checkWithin_eq_error_of_check (hcheck : e.check = .ok ())
    (h : checkWithin limits e depth = .error cause) :
    limits.maxDepth + 1 < e.height + depth ∧ cause = .recursionLimit limits.maxDepth := by
  rcases (rejects_of_checkWithin h).tooHigh_or_violation with hhigh | hviolation
  · exact hhigh
  · obtain ⟨t, ht, violation, hnode, -⟩ := hviolation
    have hok : t.checkNode = .ok () := Expr.everywhere_checkNode_of_check hcheck t ht
    rw [hnode] at hok
    cases hok

/-- The check before an evaluation accepts what the check accepts, as far as the limit
reaches down to the leaves.  Of a tree within the limit it reports the violation that the
check reports, that of the first node in the order of evaluation, and as the same kind of
failure.  So a tree that has been bound is rejected only for its height. -/
theorem checkWithin_agrees (limits : Limits) (e : Expr) :
    (checkWithin limits e 1 = .ok () ↔ e.check = .ok () ∧ e.height ≤ limits.maxDepth) ∧
    (∀ violation, e.check = .error violation ↔ e.FirstViolation violation) ∧
    (e.height ≤ limits.maxDepth → ∀ violation, e.check = .error violation →
      checkWithin limits e 1 = .error (.ofTypeError violation) ∧
        (EvaluationError.ofTypeError violation).report.kind = violation.report.kind) ∧
    ∀ origin space locale, Expr.bind space locale origin = .ok e →
      ∀ cause, checkWithin limits e 1 = .error cause →
        limits.maxDepth < e.height ∧ cause = .recursionLimit limits.maxDepth := by
  have hheight : e.height + 1 ≤ limits.maxDepth + 1 ↔ e.height ≤ limits.maxDepth :=
    Nat.add_le_add_iff_right
  refine ⟨?_, fun violation => Expr.check_eq_error_iff, ?_, ?_⟩
  · rw [checkWithin_eq_ok_iff, hheight]
  · intro hle violation hcheck
    refine ⟨?_, EvaluationError.kind_report_ofTypeError violation⟩
    rw [checkWithin_eq_check (hheight.mpr hle), hcheck]
    rfl
  · intro origin space locale hbind cause hcause
    have hcheck := Expr.check_of_bind_eq_ok hbind
    obtain ⟨hhigh, rfl⟩ := checkWithin_eq_error_of_check hcheck hcause
    exact ⟨by omega, rfl⟩

/-- Of two violations, the one that comes first in the order of evaluation is reported; and a
tree that has been bound does not fit under a limit of one level. -/
theorem checkWithin_agrees_quoted :
    let quoted : Expr := .not (.string "a")
    let e : Expr := .not (.binary .and quoted (.binary .lessThan (.string "b") (.string "c")))
    let violation : TypeError :=
      .operands quoted.render (.mismatch .negation "Boolean" .string)
    let active : VariableTemplate := ⟨⟨["active"]⟩, some .boolean⟩
    let d : Draft := Draft.root.bind (Object.ofSymbol (.variable active))
    let origin : Expr := .not (.placeholder ⟨[], ⟨["active"]⟩, none⟩)
    let u : Expr := .not (.variable ⟨["active"]⟩ active)
    e.height ≤ 4 ∧ e.check = .error violation ∧
      checkWithin ⟨4⟩ e 1 = .error (.ofTypeError violation) ∧
      (EvaluationError.ofTypeError violation).report.kind = violation.report.kind ∧
      ∃ space, d.register = .ok space ∧ origin.bind space none = .ok u ∧
        checkWithin ⟨1⟩ u 1 = .error (.recursionLimit 1) ∧ 1 < u.height := by
  intro quoted e violation active d origin u
  have hheight : e.height ≤ 4 := by decide
  have hcheck : e.check = .error violation := rfl
  obtain ⟨hwithin, hkind⟩ := (checkWithin_agrees ⟨4⟩ e).2.2.1 hheight violation hcheck
  have hbind : ∃ space, d.register = .ok space ∧ origin.bind space none = .ok u := by
    simp only [d, origin, u, active]
    exact ⟨_, rfl, rfl⟩
  obtain ⟨space, hspace, hu⟩ := hbind
  have htoo : checkWithin ⟨1⟩ u 1 = .error (.recursionLimit 1) := rfl
  obtain ⟨hhigh, -⟩ := (checkWithin_agrees ⟨1⟩ u).2.2.2 origin space none hu _ htoo
  exact ⟨hheight, hcheck, hwithin, hkind, space, hspace, hu, htoo, hhigh⟩

end Evaluation
end Criteria
