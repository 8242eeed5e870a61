import Criteria.Evaluation
import Criteria.Proofs.Distinct
import Criteria.Proofs.Outcome
import Criteria.Proofs.Subtrees
import Mathlib.Logic.Basic

/-!
# The steps of an evaluation

What each part of an evaluation does, said once for every later proof: entering a
node, enforcing a declared kind, putting a node together from the values of its
children.  A kind that is known in advance agrees with the kind of a value when the
two do not differ.

**Results.**
* `visit_eq_ok_iff`: a node is entered within the limit, then its work decides.
* `operation_eq_ok_iff`: an operation has a value exactly when its operand rule accepts
  the kinds of the two values.
* `collect_eq_ok_iff`: values form a set exactly when none of them is a set.
* `checkWithin_eq_ok_iff`: the check before an evaluation is the static check together
  with the limit on the height.
-/

namespace Criteria

/-- What is known of a kind in advance does not contradict it. -/
def Kind.Agrees (known : Option Kind) (k : Kind) : Prop :=
  known = none ∨ known = some k

theorem Kind.agrees_some (k : Kind) : Kind.Agrees (some k) k :=
  Or.inr rfl

namespace Evaluation

open Outcome

variable {σ : Type} {limits : Limits} {ctx : Context σ} {node : Expr}

section Visit

variable {depth : Nat} {work : EStateM EvaluationError σ Value} {s s' : σ}

theorem enter_eq_ok_iff : enter limits depth = .ok () ↔ depth ≤ limits.maxDepth := by
  unfold enter
  split
  · next h => simp; omega
  · next h => simp; omega

theorem visit_of_le (h : depth ≤ limits.maxDepth) :
    visit limits ctx node depth work s =
      match work s with
      | .ok v s₁ => .ok v (ctx.observe node v s₁)
      | .error cause s₁ => .error cause s₁ := by
  have henter : (ofExcept (enter limits depth) : EStateM EvaluationError σ Unit) s =
      .ok () s := by
    rw [enter_eq_ok_iff.mpr h]
    rfl
  rw [visit, run_bind_of_ok henter]
  cases hw : work s with
  | ok v s₁ => rw [run_bind_of_ok hw]; rfl
  | error cause s₁ => rw [run_bind_of_error hw]

theorem visit_of_lt (h : limits.maxDepth < depth) :
    visit limits ctx node depth work s =
      .error (.recursionLimit limits.maxDepth) s := by
  have henter : enter limits depth = .error (.recursionLimit limits.maxDepth) := by
    simp [enter, h]
  rw [visit, henter]
  exact run_bind_of_error (run_ofExcept_error _ s)

theorem visit_eq_ok_iff {v : Value} :
    visit limits ctx node depth work s = .ok v s' ↔
      depth ≤ limits.maxDepth ∧
        ∃ s₁, work s = .ok v s₁ ∧ s' = ctx.observe node v s₁ := by
  by_cases h : depth ≤ limits.maxDepth
  · rw [visit_of_le h]
    cases work s with
    | ok w s₁ =>
        simp only [h, true_and, EStateM.Result.ok.injEq]
        constructor
        · rintro ⟨rfl, rfl⟩
          exact ⟨s₁, ⟨rfl, rfl⟩, rfl⟩
        · rintro ⟨_, ⟨rfl, rfl⟩, rfl⟩
          exact ⟨rfl, rfl⟩
    | error cause s₁ => simp
  · rw [visit_of_lt (by omega)]
    simp [h]

end Visit

section Lists

variable {depth : Nat}

theorem evalAll_eq_mapM (es : List Expr) :
    evalAll limits ctx es depth = es.mapM fun e => eval limits ctx e depth := by
  induction es with
  | nil => rfl
  | cons e es ih => rw [evalAll, ih, List.mapM_cons]

/-- Each argument that has a parameter is evaluated and then compared with it. -/
theorem evalArguments_eq_mapM (ps : List Parameter) (es : List Expr) :
    evalArguments limits ctx node ps es depth = (ps.zip es).mapM (fun x => do
      let v ← eval limits ctx x.2 depth
      ofExcept (expectArgument node x.1 v)
      pure v) := by
  induction es generalizing ps with
  | nil => cases ps <;> rfl
  | cons e es ih =>
      cases ps with
      | nil => rfl
      | cons p ps =>
          rw [evalArguments, ih, List.zip_cons_cons, List.mapM_cons]
          simp only [bind_assoc, pure_bind]

end Lists

section Kinds

variable {v : Value}

theorem expectKind_eq_ok_iff {declared : Option Kind} :
    expectKind node declared v = .ok () ↔ Kind.Agrees declared v.kind := by
  cases declared with
  | none => simp [expectKind, Kind.Agrees]
  | some k => simp [expectKind, Kind.Agrees]

theorem expectArgument_eq_ok_iff {p : Parameter} :
    expectArgument node p v = .ok () ↔ Kind.Agrees p.kind v.kind := by
  unfold expectArgument
  cases p.kind with
  | none => simp [Kind.Agrees]
  | some k => simp [Kind.Agrees]

end Kinds

section Operations

variable {v l r : Value} {op : BinaryOp}

theorem isSet_eq_true_iff : v.isSet = true ↔ v.kind = .set := by
  cases v <;> simp [Value.isSet, Value.kind]

theorem kind_eq_boolean_iff : v.kind = .boolean ↔ ∃ b, v = .boolean b := by
  cases v <;> simp [Value.kind]

theorem kind_eq_number_iff : v.kind = .number ↔ ∃ n, v = .number n := by
  cases v <;> simp [Value.kind]

theorem kind_eq_set_iff : v.kind = .set ↔ ∃ members, v = .set members := by
  cases v <;> simp [Value.kind]

theorem expectBoolean_some {o : Operator} {k : Kind} :
    expectBoolean o (some k) = .ok () ↔ k = .boolean := by
  simp [expectBoolean]

theorem expectNumber_some {o : Operator} {k : Kind} :
    expectNumber o (some k) = .ok () ↔ k = .number := by
  simp [expectNumber]

theorem expectSet_some {o : Operator} {k : Kind} :
    expectSet o (some k) = .ok () ↔ k = .set := by
  simp [expectSet]

theorem expectElement_some {o : Operator} {k : Kind} :
    expectElement o (some k) = .ok () ↔ k ≠ .set := by
  cases k <;> simp [expectElement]

/-- The operations on numbers are defined where their rule accepts the operands. -/
theorem relate_of_rule
    (hrel : op.isRelational = true)
    (h : op.checkKinds (some l.kind) (some r.kind) = .ok ()) :
    ∃ b, Operation.relate node op l r = .ok b := by
  have hkinds : l.kind = .number ∧ r.kind = .number := by
    cases op <;> simp [BinaryOp.isRelational] at hrel <;>
      simpa only [BinaryOp.checkKinds, check_bind_eq_ok_iff, expectNumber_some] using h
  obtain ⟨a, rfl⟩ := kind_eq_number_iff.mp hkinds.1
  obtain ⟨b, rfl⟩ := kind_eq_number_iff.mp hkinds.2
  cases op <;> simp [BinaryOp.isRelational] at hrel <;> exact ⟨_, rfl⟩

/-- The connectives are defined where their rule accepts the operands. -/
theorem connect_of_rule {f : Bool → Bool → Bool}
    (hlog : op.isLogical = true)
    (h : op.checkKinds (some l.kind) (some r.kind) = .ok ()) :
    ∃ b, Operation.connect node op f l r = .ok b := by
  have hkinds : l.kind = .boolean ∧ r.kind = .boolean := by
    cases op <;> simp [BinaryOp.isLogical] at hlog <;>
      simpa only [BinaryOp.checkKinds, check_bind_eq_ok_iff, expectBoolean_some] using h
  obtain ⟨a, rfl⟩ := kind_eq_boolean_iff.mp hkinds.1
  obtain ⟨b, rfl⟩ := kind_eq_boolean_iff.mp hkinds.2
  exact ⟨f a b, rfl⟩

theorem belong_of_rule
    (h : BinaryOp.belongsTo.checkKinds (some l.kind) (some r.kind) = .ok ()) :
    ∃ b, Operation.belong node l r = .ok b := by
  simp only [BinaryOp.checkKinds, check_bind_eq_ok_iff, expectElement_some,
    expectSet_some] at h
  obtain ⟨members, rfl⟩ := kind_eq_set_iff.mp h.2
  have hl : l.isSet = false := by
    rw [← Bool.not_eq_true, isSet_eq_true_iff]
    exact h.1
  exact ⟨_, by simp only [Operation.belong, hl]; rfl⟩

theorem enclose_of_rule
    (h : BinaryOp.isSubset.checkKinds (some l.kind) (some r.kind) = .ok ()) :
    ∃ b, Operation.enclose node l r = .ok b := by
  simp only [BinaryOp.checkKinds, check_bind_eq_ok_iff, expectSet_some] at h
  obtain ⟨inner, rfl⟩ := kind_eq_set_iff.mp h.1
  obtain ⟨outer, rfl⟩ := kind_eq_set_iff.mp h.2
  exact ⟨_, rfl⟩

/-- An operator is defined wherever its rule accepts the kinds of the operands: the
errors of the operations themselves are never met behind the rule. -/
theorem apply_of_rule
    (h : op.checkKinds (some l.kind) (some r.kind) = .ok ()) :
    ∃ b, Operation.apply node op l r = .ok b := by
  cases op with
  | and => exact connect_of_rule rfl h
  | or => exact connect_of_rule rfl h
  | xor => exact connect_of_rule rfl h
  | equal => exact ⟨_, rfl⟩
  | notEqual => exact ⟨_, rfl⟩
  | lessThan => exact relate_of_rule rfl h
  | greaterThan => exact relate_of_rule rfl h
  | lessOrEqual => exact relate_of_rule rfl h
  | greaterOrEqual => exact relate_of_rule rfl h
  | belongsTo => exact belong_of_rule h
  | isSubset => exact enclose_of_rule h

theorem operation_eq_ok_iff :
    (∃ w, operation node op l r = .ok w) ↔
      op.checkKinds (some l.kind) (some r.kind) = .ok () := by
  constructor
  · rintro ⟨w, h⟩
    obtain ⟨⟨⟩, hrule, -⟩ := bind_eq_ok_iff.mp h
    exact mapError_eq_ok_iff.mp hrule
  · intro h
    obtain ⟨b, hb⟩ : ∃ b, Operation.apply node op l r = .ok b := apply_of_rule h
    refine ⟨.boolean b, ?_⟩
    rw [operation, h, mapError_ok, hb]
    rfl

theorem kind_of_operation {w : Value} (h : operation node op l r = .ok w) :
    w.kind = .boolean := by
  obtain ⟨_, -, h⟩ := bind_eq_ok_iff.mp h
  obtain ⟨b, -, h⟩ := bind_eq_ok_iff.mp h
  cases h
  rfl

theorem negation_eq_ok_iff :
    (∃ w, negation node v = .ok w) ↔ checkNegation (some v.kind) = .ok () := by
  constructor
  · rintro ⟨w, h⟩
    obtain ⟨⟨⟩, hrule, -⟩ := bind_eq_ok_iff.mp h
    exact mapError_eq_ok_iff.mp hrule
  · intro h
    obtain ⟨b, rfl⟩ := kind_eq_boolean_iff.mp (expectBoolean_some.mp h)
    exact ⟨.boolean !b, rfl⟩

theorem kind_of_negation {w : Value} (h : negation node v = .ok w) :
    w.kind = .boolean := by
  obtain ⟨_, -, h⟩ := bind_eq_ok_iff.mp h
  obtain ⟨b, -, h⟩ := bind_eq_ok_iff.mp h
  cases h
  rfl

end Operations

section Sets

variable {values : List Value}

theorem kind_of_collect {v : Value} (h : collect node values = .ok v) :
    v.kind = .set := by
  rw [collect, mapError_eq_ok_iff, Value.ofMembers] at h
  cases hc : Distinct.collect Value.isSet values with
  | error member => simp [hc, Except.map] at h
  | ok kept =>
      simp only [hc, Except.map, Except.ok.injEq] at h
      rw [← h]
      rfl

theorem collect_eq_ok_iff :
    (∃ v, collect node values = .ok v) ↔ ∀ v ∈ values, v.kind ≠ .set := by
  have hcollect := Distinct.collect_ok_iff Value.isSet values
  simp only [← Bool.not_eq_true, isSet_eq_true_iff] at hcollect
  rw [← hcollect, collect, Value.ofMembers]
  cases Distinct.collect Value.isSet values with
  | error member => simp [Except.map, mapError_error]
  | ok kept => simp [Except.map, mapError_ok]

/-- The only way in which values do not form a set. -/
theorem collect_eq_error {cause : EvaluationError}
    (h : collect node values = .error cause) :
    ∃ member, cause = .nestedSet node.render member := by
  rw [collect] at h
  cases hc : Value.ofMembers values with
  | error member =>
      simp only [hc, mapError_error, Except.error.injEq] at h
      exact ⟨member.render, h.symm⟩
  | ok v => simp [hc, mapError_ok] at h

end Sets

section Precheck

variable {depth : Nat}

theorem checkWithin_eq (e : Expr) :
    checkWithin limits e depth = (do
      enter limits depth
      checkAllWithin limits e.children (depth + 1)
      checkNode e) := by
  cases e with
  | constant c => cases c <;> rfl
  | placeholder p => obtain ⟨_, _, _ | _⟩ := p <;> rfl
  | «variable» _ _ => rfl
  | call _ _ _ => rfl
  | not operand =>
      simp only [checkWithin, Expr.children, checkAllWithin]
      cases checkWithin limits operand (depth + 1) <;> rfl
  | binary _ left right =>
      simp only [checkWithin, Expr.children, checkAllWithin]
      cases checkWithin limits left (depth + 1) <;>
        cases checkWithin limits right (depth + 1) <;> rfl

theorem checkAllWithin_eq_forM (es : List Expr) :
    checkAllWithin limits es depth = forM es fun e => checkWithin limits e depth := by
  induction es with
  | nil => rfl
  | cons e es ih => rw [checkAllWithin, ih, List.forM_cons]

theorem checkAllWithin_eq_ok_iff {es : List Expr} :
    checkAllWithin limits es depth = .ok () ↔
      ∀ e ∈ es, checkWithin limits e depth = .ok () := by
  rw [checkAllWithin_eq_forM, forM_eq_ok_iff]

theorem checkNode_eq_ok_iff {e : Expr} :
    checkNode e = .ok () ↔ e.checkNode = .ok () :=
  mapError_eq_ok_iff

theorem checkArguments_cons_eq_ok_iff {function : String}
    {p : Parameter} {ps : List Parameter} {e : Expr} {es : List Expr} :
    Expr.checkArguments function (p :: ps) (e :: es) = .ok () ↔
      (∀ expected found, p.kind = some expected → e.staticKind = some found →
        expected = found) ∧
        Expr.checkArguments function ps es = .ok () := by
  rw [Expr.checkArguments]
  cases p.kind with
  | none => simp
  | some expected =>
      cases e.staticKind with
      | none => simp
      | some found => by_cases h : expected = found <;> simp [h]

theorem checkAll_eq_forM (es : List Expr) :
    Expr.checkAll es = forM es Expr.check := by
  induction es with
  | nil => rfl
  | cons e es ih => rw [Expr.checkAll, ih, List.forM_cons]

theorem checkAll_eq_ok_iff {es : List Expr} :
    Expr.checkAll es = .ok () ↔ ∀ e ∈ es, e.check = .ok () := by
  rw [checkAll_eq_forM, forM_eq_ok_iff]

theorem check_eq_ok_iff {e : Expr} :
    e.check = .ok () ↔ (∀ c ∈ e.children, c.check = .ok ()) ∧ e.checkNode = .ok () := by
  rw [Expr.check_eq, check_bind_eq_ok_iff, checkAll_eq_ok_iff]

theorem heightAll_le_iff {es : List Expr} {n : Nat} :
    Expr.heightAll es ≤ n ↔ ∀ e ∈ es, e.height ≤ n := by
  induction es with
  | nil => simp [Expr.heightAll]
  | cons e es ih =>
      rw [Expr.heightAll, Nat.max_le, ih]
      simp

/-- The check before an evaluation accepts what the static check accepts, as far as
the limit reaches down to the lowest leaf. -/
theorem checkWithin_eq_ok_iff (e : Expr) (depth : Nat) :
    checkWithin limits e depth = .ok () ↔
      e.check = .ok () ∧ e.height + depth ≤ limits.maxDepth + 1 := by
  induction e using Expr.child_induction generalizing depth with
  | node e ih =>
      rw [checkWithin_eq, check_bind_eq_ok_iff, check_bind_eq_ok_iff, enter_eq_ok_iff,
        checkAllWithin_eq_ok_iff, checkNode_eq_ok_iff, check_eq_ok_iff]
      have hchildren :
          (∀ c ∈ e.children, checkWithin limits c (depth + 1) = .ok ()) ↔
            (∀ c ∈ e.children, c.check = .ok ()) ∧
              ∀ c ∈ e.children, c.height + (depth + 1) ≤ limits.maxDepth + 1 := by
        rw [← forall₂_and]
        exact forall₂_congr fun c hc => ih c hc (depth + 1)
      have hheight :
          e.height + depth ≤ limits.maxDepth + 1 ↔
            depth ≤ limits.maxDepth ∧
              ∀ c ∈ e.children, c.height + (depth + 1) ≤ limits.maxDepth + 1 := by
        rw [Expr.height_eq]
        constructor
        · intro h
          refine ⟨by omega, fun c hc => ?_⟩
          have := heightAll_le_iff.mp (Nat.le_refl (Expr.heightAll e.children)) c hc
          omega
        · rintro ⟨hd, h⟩
          have : Expr.heightAll e.children ≤ limits.maxDepth - depth :=
            heightAll_le_iff.mpr fun c hc => by
              have := h c hc
              omega
          omega
      rw [hchildren, hheight]
      constructor
      · rintro ⟨hd, ⟨hc, hh⟩, hn⟩
        exact ⟨⟨hc, hn⟩, hd, hh⟩
      · rintro ⟨⟨hc, hn⟩, hd, hh⟩
        exact ⟨hd, ⟨hc, hh⟩, hn⟩

end Precheck

end Evaluation
end Criteria
