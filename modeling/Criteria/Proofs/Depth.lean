import Criteria.Proofs.Consultation
import Criteria.Proofs.Denotation

/-!
# The limit of depth

The limit is enforced twice, by the check before an evaluation and again while the tree is
evaluated.  Both walks count the levels in the same way, and the check goes wherever the
evaluation goes.  So a tree that is too high is rejected by the check, before the context is
asked anything, and the evaluation of a tree that has passed the check never meets the limit.

The check may reject a tree that is too high for another reason: a node whose children lie
within the limit and which breaks its rule may come before the first node that is too deep.
The relation `Rejects` says which of the two comes first.

**Results.**
* `checkWithin_eq_error_iff`: the error of the check, from the order of its walk.
* `eval_eq_of_within`: within two limits, a tree is evaluated in the same way.
* `evaluateValue_eq_of_le`: a greater limit matters only where the limit was exceeded.
* `evaluateValue_maxDepth`: what an evaluation does within its limit, and beyond.
-/

namespace Criteria
namespace Evaluation

open Outcome

section Check

variable {limits limits' : Limits} {e : Expr} {depth : Nat} {cause : EvaluationError}

/-- How the check before an evaluation rejects a tree whose root is at some depth. -/
inductive Rejects (limits : Limits) : Expr → Nat → EvaluationError → Prop
  /-- The root is deeper than the limit. -/
  | tooDeep {e : Expr} {depth : Nat} (hd : limits.maxDepth < depth) :
      Rejects limits e depth (.recursionLimit limits.maxDepth)
  /-- The root is not too deep, the first children pass and the next one is rejected. -/
  | child {e c : Expr} {depth : Nat} {cause : EvaluationError} {before after : List Expr}
      (hd : depth ≤ limits.maxDepth) (hsplit : e.children = before ++ c :: after)
      (hbefore : ∀ b ∈ before, checkWithin limits b (depth + 1) = .ok ())
      (hc : Rejects limits c (depth + 1) cause) :
      Rejects limits e depth cause
  /-- The root is not too deep, all children pass and the root breaks its rule. -/
  | rule {e : Expr} {depth : Nat} {violation : TypeError}
      (hd : depth ≤ limits.maxDepth)
      (hchildren : ∀ c ∈ e.children, checkWithin limits c (depth + 1) = .ok ())
      (hnode : e.checkNode = .error violation) :
      Rejects limits e depth (.ofTypeError violation)

theorem enter_eq_error_iff :
    enter limits depth = .error cause ↔
      limits.maxDepth < depth ∧ cause = .recursionLimit limits.maxDepth := by
  unfold enter
  split
  · next hd => simp [hd, eq_comm]
  · next hd => simp [hd]

theorem checkNode_eq_error_iff :
    checkNode e = .error cause ↔
      ∃ violation, e.checkNode = .error violation ∧ cause = .ofTypeError violation := by
  rw [checkNode]
  cases e.checkNode with
  | ok _ => simp [mapError_ok]
  | error violation => simp [mapError_error, eq_comm]

/-- The trees of a list are rejected for the first one that is. -/
theorem checkAllWithin_eq_error_iff {es : List Expr} :
    checkAllWithin limits es depth = .error cause ↔
      ∃ before c after, es = before ++ c :: after ∧
        (∀ b ∈ before, checkWithin limits b depth = .ok ()) ∧
        checkWithin limits c depth = .error cause := by
  rw [checkAllWithin_eq_forM, forM_eq_error_iff]

theorem rejects_of_checkWithin (h : checkWithin limits e depth = .error cause) :
    Rejects limits e depth cause := by
  induction e using Expr.child_induction generalizing depth with
  | node e ih =>
      rw [checkWithin_eq, bind_eq_error_iff] at h
      obtain henter | ⟨⟨⟩, henter, h⟩ := h
      · obtain ⟨hd, rfl⟩ := enter_eq_error_iff.mp henter
        exact .tooDeep hd
      have hd := enter_eq_ok_iff.mp henter
      obtain hall | ⟨⟨⟩, hall, hnode⟩ := bind_eq_error_iff.mp h
      · obtain ⟨before, c, after, hsplit, hbefore, hc⟩ := checkAllWithin_eq_error_iff.mp hall
        have hmem : c ∈ e.children := by simp [hsplit]
        exact .child hd hsplit hbefore (ih c hmem hc)
      · obtain ⟨violation, hviolation, rfl⟩ := checkNode_eq_error_iff.mp hnode
        exact .rule hd (checkAllWithin_eq_ok_iff.mp hall) hviolation

theorem Rejects.checkWithin (h : Rejects limits e depth cause) :
    checkWithin limits e depth = .error cause := by
  induction h with
  | tooDeep hd =>
      rw [checkWithin_eq, bind_eq_error_iff]
      exact .inl (enter_eq_error_iff.mpr ⟨hd, rfl⟩)
  | child hd hsplit hbefore _ ih =>
      rw [checkWithin_eq, bind_eq_error_iff]
      refine .inr ⟨(), enter_eq_ok_iff.mpr hd, bind_eq_error_iff.mpr (.inl ?_)⟩
      exact checkAllWithin_eq_error_iff.mpr ⟨_, _, _, hsplit, hbefore, ih⟩
  | rule hd hchildren hnode =>
      rw [checkWithin_eq, bind_eq_error_iff]
      refine .inr ⟨(), enter_eq_ok_iff.mpr hd, bind_eq_error_iff.mpr (.inr ⟨(), ?_, ?_⟩)⟩
      · exact checkAllWithin_eq_ok_iff.mpr hchildren
      · exact checkNode_eq_error_iff.mpr ⟨_, hnode, rfl⟩

/-- The check fails for the first node of its walk that is too deep or breaks its rule. -/
theorem checkWithin_eq_error_iff :
    checkWithin limits e depth = .error cause ↔ Rejects limits e depth cause :=
  ⟨rejects_of_checkWithin, Rejects.checkWithin⟩

/-- A tree is rejected because it is too high or because one of its nodes breaks a rule. -/
theorem Rejects.tooHigh_or_violation (h : Rejects limits e depth cause) :
    (limits.maxDepth + 1 < e.height + depth ∧ cause = .recursionLimit limits.maxDepth) ∨
      ∃ t ∈ e.subtrees, ∃ violation,
        t.checkNode = .error violation ∧ cause = .ofTypeError violation := by
  induction h with
  | @tooDeep e depth hd =>
      have := e.height_pos
      exact .inl ⟨by omega, rfl⟩
  | @child e c depth cause before after hd hsplit hbefore _ ih =>
      have hmem : c ∈ e.children := by simp [hsplit]
      obtain ⟨hheight, hcause⟩ | ⟨t, ht, hviolation⟩ := ih
      · have hc := heightAll_le_iff.mp (Nat.le_refl (Expr.heightAll e.children)) c hmem
        rw [e.height_eq]
        exact .inl ⟨by omega, hcause⟩
      · exact .inr ⟨t, Expr.mem_subtrees_of_child hmem ht, hviolation⟩
  | @rule e depth violation hd hchildren hnode =>
      exact .inr ⟨e, e.self_mem_subtrees, violation, hnode, rfl⟩

theorem checkWithin_mono (hle : limits.maxDepth ≤ limits'.maxDepth)
    (h : checkWithin limits e depth = .ok ()) : checkWithin limits' e depth = .ok () := by
  rw [checkWithin_eq_ok_iff] at h ⊢
  exact ⟨h.1, by omega⟩

/-- A node that breaks its rule stands in the way of a greater limit, too. -/
theorem Rejects.mono (hle : limits.maxDepth ≤ limits'.maxDepth)
    (hcause : ∀ n, cause ≠ .recursionLimit n) (h : Rejects limits e depth cause) :
    Rejects limits' e depth cause := by
  induction h with
  | tooDeep hd => exact absurd rfl (hcause _)
  | child hd hsplit hbefore _ ih =>
      exact .child (by omega) hsplit (fun b hb => checkWithin_mono hle (hbefore b hb))
        (ih hcause)
  | rule hd hchildren hnode =>
      exact .rule (by omega) (fun c hc => checkWithin_mono hle (hchildren c hc)) hnode

end Check

section Errors

variable {node : Expr} {v l r : Value} {op : BinaryOp} {n : Nat}

theorem ofOperandError_ne_recursionLimit (text : String) (cause : OperandError) :
    EvaluationError.ofOperandError text cause ≠ .recursionLimit n := by
  cases cause <;> nofun

theorem ofTypeError_ne_recursionLimit (violation : TypeError) :
    EvaluationError.ofTypeError violation ≠ .recursionLimit n := by
  cases violation with
  | operands text cause => exact ofOperandError_ne_recursionLimit text cause
  | argument function parameter expected found => nofun

theorem collect_ne_recursionLimit (vs : List Value) :
    collect node vs ≠ .error (.recursionLimit n) := by
  intro h
  obtain ⟨member, hmember⟩ := collect_eq_error h
  cases hmember

theorem expectKind_ne_recursionLimit (declared : Option Kind) :
    expectKind node declared v ≠ .error (.recursionLimit n) := by
  unfold expectKind
  split
  · nofun
  · split <;> nofun

theorem expectArgument_ne_recursionLimit (p : Parameter) :
    expectArgument node p v ≠ .error (.recursionLimit n) := by
  unfold expectArgument
  split
  · nofun
  · split <;> nofun

/-- Operands that pass the rule of a negation have a value, so the rule is the only
failure. -/
theorem negation_ne_recursionLimit : negation node v ≠ .error (.recursionLimit n) := by
  intro h
  cases hrule : checkNegation (some v.kind) with
  | ok _ =>
      obtain ⟨w, hw⟩ := negation_eq_ok_iff.mpr hrule
      rw [h] at hw
      cases hw
  | error cause =>
      rw [negation, hrule, mapError_error] at h
      exact ofOperandError_ne_recursionLimit _ cause (Except.error.inj h)

theorem operation_ne_recursionLimit :
    operation node op l r ≠ .error (.recursionLimit n) := by
  intro h
  cases hrule : op.checkKinds (some l.kind) (some r.kind) with
  | ok _ =>
      obtain ⟨w, hw⟩ := operation_eq_ok_iff.mpr hrule
      rw [h] at hw
      cases hw
  | error cause =>
      rw [operation, hrule, mapError_error] at h
      exact ofOperandError_ne_recursionLimit _ cause (Except.error.inj h)

end Errors

section Runs

variable {σ α β : Type} {limits limits' : Limits} {ctx : Context σ} {depth : Nat}

/-- An action never ends with an exceeded limit of depth. -/
def NeverLimited (x : EStateM EvaluationError σ α) : Prop :=
  ∀ s n, answer (x s) ≠ .error (.recursionLimit n)

theorem neverLimited_pure (a : α) : NeverLimited (pure a : EStateM EvaluationError σ α) := by
  intro s n h
  cases h

theorem neverLimited_ofExcept {x : Except EvaluationError α}
    (hx : ∀ n, x ≠ .error (.recursionLimit n)) :
    NeverLimited (ofExcept x : EStateM EvaluationError σ α) := by
  intro s n h
  rw [answer_ofExcept] at h
  exact hx n h

theorem neverLimited_bind {x : EStateM EvaluationError σ α}
    {f : α → EStateM EvaluationError σ β} (hx : NeverLimited x)
    (hf : ∀ a, NeverLimited (f a)) : NeverLimited (x >>= f) := by
  intro s n
  have hfirst := hx s n
  cases h : x s with
  | ok a s₁ =>
      rw [run_bind_of_ok h]
      exact hf a s₁ n
  | error cause s₁ =>
      rw [h] at hfirst
      rw [run_bind_of_error h]
      rintro ⟨⟩
      exact hfirst rfl

theorem neverLimited_visit {node : Expr} {work : EStateM EvaluationError σ Value}
    (hd : depth ≤ limits.maxDepth) (h : NeverLimited work) :
    NeverLimited (visit limits ctx node depth work) := by
  intro s n
  rw [answer_visit hd rfl]
  exact h s n

theorem neverLimited_expectKind {node : Expr} {declared : Option Kind}
    {ask : EStateM EvaluationError σ Value} (h : NeverLimited ask) :
    NeverLimited (do
      let v ← ask
      ofExcept (expectKind node declared v)
      pure v) :=
  neverLimited_bind h fun v =>
    neverLimited_bind (neverLimited_ofExcept fun _ => expectKind_ne_recursionLimit declared)
      fun _ => neverLimited_pure v

theorem neverLimited_mapM {ι : Type} {f : ι → EStateM EvaluationError σ α} {is : List ι}
    (h : ∀ i ∈ is, NeverLimited (f i)) : NeverLimited (is.mapM f) := by
  induction is with
  | nil => exact neverLimited_pure []
  | cons i is ih =>
      rw [List.mapM_cons]
      refine neverLimited_bind (h i List.mem_cons_self) fun a => ?_
      refine neverLimited_bind ?_ fun as => neverLimited_pure (a :: as)
      exact ih fun i' hi' => h i' (List.mem_cons_of_mem i hi')

theorem neverLimited_evalAll {es : List Expr}
    (ih : ∀ e ∈ es, NeverLimited (eval limits ctx e depth)) :
    NeverLimited (evalAll limits ctx es depth) := by
  rw [evalAll_eq_mapM]
  exact neverLimited_mapM ih

theorem neverLimited_evalArguments (node : Expr) {ps : List Parameter} {es : List Expr}
    (ih : ∀ e ∈ es, NeverLimited (eval limits ctx e depth)) :
    NeverLimited (evalArguments limits ctx node ps es depth) := by
  rw [evalArguments_eq_mapM]
  refine neverLimited_mapM fun x hx => ?_
  refine neverLimited_bind (ih x.2 (List.of_mem_zip hx).2) fun v => ?_
  refine neverLimited_bind ?_ fun _ => neverLimited_pure v
  exact neverLimited_ofExcept fun _ => expectArgument_ne_recursionLimit x.1

end Runs

end Evaluation

/-- The context does not answer with an exceeded limit of depth of its own. -/
structure Context.Unlimited {σ : Type} (ctx : Context σ) : Prop where
  lookup : ∀ template, Evaluation.NeverLimited (ctx.lookup template)
  invoke : ∀ template values, Evaluation.NeverLimited (ctx.invoke template values)

namespace Evaluation

open Outcome

variable {σ : Type} {limits limits' : Limits} {ctx : Context σ} {e : Expr} {depth : Nat}

section Within

/-- The children of a tree that is not too high, one level below its root, are not too high
either. -/
theorem child_within (within : e.height + depth ≤ limits.maxDepth + 1) :
    depth ≤ limits.maxDepth ∧
      ∀ c ∈ e.children, c.height + (depth + 1) ≤ limits.maxDepth + 1 := by
  rw [e.height_eq] at within
  refine ⟨by omega, fun c hc => ?_⟩
  have := heightAll_le_iff.mp (Nat.le_refl (Expr.heightAll e.children)) c hc
  omega

/-- A tree that is not too high never meets the limit while it is evaluated. -/
theorem neverLimited_eval (hctx : ctx.Unlimited)
    (within : e.height + depth ≤ limits.maxDepth + 1) :
    NeverLimited (eval limits ctx e depth) := by
  induction e using Expr.child_induction generalizing depth with
  | node e ih =>
      obtain ⟨hd, hwithin⟩ := child_within within
      have children : ∀ c ∈ e.children, NeverLimited (eval limits ctx c (depth + 1)) :=
        fun c hc => ih c hc (hwithin c hc)
      match e with
      | .constant (.string text) => exact neverLimited_visit hd (neverLimited_pure _)
      | .constant (.number d) => exact neverLimited_visit hd (neverLimited_pure _)
      | .constant (.set members) =>
          refine neverLimited_visit hd ?_
          refine neverLimited_bind (neverLimited_evalAll children) fun vs => ?_
          exact neverLimited_ofExcept fun _ => collect_ne_recursionLimit vs
      | .placeholder p =>
          refine neverLimited_visit hd ?_
          exact neverLimited_ofExcept (x := .error (.unbound p.render)) nofun
      | .variable path template =>
          exact neverLimited_visit hd (neverLimited_expectKind (hctx.lookup template))
      | .call path template arguments =>
          refine neverLimited_visit hd ?_
          refine neverLimited_bind (neverLimited_evalArguments _ children) fun vs => ?_
          exact neverLimited_expectKind (hctx.invoke template vs)
      | .not operand =>
          refine neverLimited_visit hd ?_
          refine neverLimited_bind (children operand (by simp [Expr.children])) fun v => ?_
          exact neverLimited_ofExcept fun _ => negation_ne_recursionLimit
      | .binary op left right =>
          refine neverLimited_visit hd ?_
          refine neverLimited_bind (children left (by simp [Expr.children])) fun l => ?_
          refine neverLimited_bind (children right (by simp [Expr.children])) fun r => ?_
          exact neverLimited_ofExcept fun _ => operation_ne_recursionLimit

theorem visit_eq_of_le {node : Expr} {work work' : EStateM EvaluationError σ Value}
    (hd : depth ≤ limits.maxDepth) (hd' : depth ≤ limits'.maxDepth) (h : work = work') :
    visit limits ctx node depth work = visit limits' ctx node depth work' := by
  subst h
  funext s
  rw [visit_of_le hd, visit_of_le hd']

theorem evalAll_eq {es : List Expr}
    (ih : ∀ e ∈ es, eval limits ctx e depth = eval limits' ctx e depth) :
    evalAll limits ctx es depth = evalAll limits' ctx es depth := by
  induction es with
  | nil => rfl
  | cons e es hes =>
      rw [evalAll, evalAll, ih e List.mem_cons_self,
        hes fun e' he' => ih e' (List.mem_cons_of_mem e he')]

theorem evalArguments_eq (node : Expr) (ps : List Parameter) {es : List Expr}
    (ih : ∀ e ∈ es, eval limits ctx e depth = eval limits' ctx e depth) :
    evalArguments limits ctx node ps es depth =
      evalArguments limits' ctx node ps es depth := by
  induction es generalizing ps with
  | nil => cases ps <;> rfl
  | cons e es hes =>
      cases ps with
      | nil => rfl
      | cons p ps =>
          rw [evalArguments, evalArguments, ih e List.mem_cons_self,
            hes ps fun e' he' => ih e' (List.mem_cons_of_mem e he')]

/-- Within two limits, a tree is evaluated in the same way: the context is asked the same
questions and left in the same state. -/
theorem eval_eq_of_within (within : e.height + depth ≤ limits.maxDepth + 1)
    (within' : e.height + depth ≤ limits'.maxDepth + 1) :
    eval limits ctx e depth = eval limits' ctx e depth := by
  induction e using Expr.child_induction generalizing depth with
  | node e ih =>
      obtain ⟨hd, hwithin⟩ := child_within within
      obtain ⟨hd', hwithin'⟩ := child_within within'
      have children : ∀ c ∈ e.children,
          eval limits ctx c (depth + 1) = eval limits' ctx c (depth + 1) :=
        fun c hc => ih c hc (hwithin c hc) (hwithin' c hc)
      match e with
      | .constant (.string text) => exact visit_eq_of_le hd hd' rfl
      | .constant (.number d) => exact visit_eq_of_le hd hd' rfl
      | .constant (.set members) =>
          have hmembers := evalAll_eq children
          exact visit_eq_of_le hd hd' (congrArg (· >>= _) hmembers)
      | .placeholder p => exact visit_eq_of_le hd hd' rfl
      | .variable path template => exact visit_eq_of_le hd hd' rfl
      | .call path template arguments =>
          have harguments :=
            evalArguments_eq (.call path template arguments) template.parameters children
          exact visit_eq_of_le hd hd' (congrArg (· >>= _) harguments)
      | .not operand =>
          have hoperand := children operand (by simp [Expr.children])
          exact visit_eq_of_le hd hd' (congrArg (· >>= _) hoperand)
      | .binary op left right =>
          have hleft := children left (by simp [Expr.children])
          have hright := children right (by simp [Expr.children])
          exact visit_eq_of_le hd hd' (by rw [hleft, hright])

end Within

section Limits

/-- A greater limit matters only to a tree that the check has found too high. -/
theorem evaluateValue_eq_of_le
    (h : ∀ n, checkWithin limits e 1 ≠ .error (.recursionLimit n))
    (hle : limits.maxDepth ≤ limits'.maxDepth) :
    evaluateValue limits' ctx e = evaluateValue limits ctx e := by
  cases hcheck : checkWithin limits e 1 with
  | ok _ =>
      have hcheck' := checkWithin_mono hle hcheck
      have hwithin := ((checkWithin_eq_ok_iff e 1).mp hcheck).2
      have hwithin' := ((checkWithin_eq_ok_iff e 1).mp hcheck').2
      rw [evaluateValue, evaluateValue, hcheck, hcheck', eval_eq_of_within hwithin' hwithin]
  | error cause =>
      have hcause : ∀ n, cause ≠ .recursionLimit n := by
        rintro n rfl
        exact h n hcheck
      -- A node that breaks its rule comes before any that is too deep for the first limit.
      have hcheck' := ((rejects_of_checkWithin hcheck).mono hle hcause).checkWithin
      funext s
      rw [evaluateValue_of_checkWithin_error limits ctx hcheck,
        evaluateValue_of_checkWithin_error limits' ctx hcheck']

/-- A tree that is not too high is not rejected for the limit. -/
theorem checkWithin_ne_recursionLimit (within : e.height + depth ≤ limits.maxDepth + 1)
    (n : Nat) : checkWithin limits e depth ≠ .error (.recursionLimit n) := by
  intro h
  obtain ⟨hheight, -⟩ | ⟨t, -, violation, -, hcause⟩ :=
    (rejects_of_checkWithin h).tooHigh_or_violation
  · omega
  · exact ofTypeError_ne_recursionLimit violation hcause.symm

theorem neverLimited_evaluateValue (hctx : ctx.Unlimited)
    (hheight : e.height ≤ limits.maxDepth) : NeverLimited (evaluateValue limits ctx e) := by
  have within : e.height + 1 ≤ limits.maxDepth + 1 := Nat.succ_le_succ hheight
  refine neverLimited_bind (neverLimited_ofExcept (checkWithin_ne_recursionLimit within)) ?_
  exact fun _ => neverLimited_eval hctx within

/-- A tree that is too high is rejected in the state that it is found in, for the first node
of the check that is too deep or that breaks its rule. -/
theorem rejects_of_tooHigh (hheight : limits.maxDepth < e.height) (s : σ) :
    transcript limits ctx e s = [] ∧
      ∃ cause, evaluateValue limits ctx e s = .error cause s ∧ Rejects limits e 1 cause := by
  cases hcheck : checkWithin limits e 1 with
  | ok _ =>
      have := ((checkWithin_eq_ok_iff e 1).mp hcheck).2
      omega
  | error cause =>
      exact ⟨transcript_of_checkWithin_error hcheck s, cause,
        evaluateValue_of_checkWithin_error limits ctx hcheck s, rejects_of_checkWithin hcheck⟩

/-- A context that answers alike in every state makes for answers that are alike. -/
theorem answer_evaluateValue_eq (hdet : ctx.Deterministic) (s t : σ) :
    answer (evaluateValue limits ctx e s) = answer (evaluateValue limits ctx e t) := by
  cases hcheck : checkWithin limits e 1 with
  | ok _ =>
      have h := hdet.follows s
      rw [answer_evaluateValue h hcheck, answer_evaluateValue h hcheck]
  | error cause =>
      rw [evaluateValue_of_checkWithin_error limits ctx hcheck,
        evaluateValue_of_checkWithin_error limits ctx hcheck]
      rfl

/-- The evaluation of a tree within a limit of depth, in a context that has no such limit of
its own.  A tree that is not higher than the limit never exceeds it, and is evaluated in the
same way within every limit that it does not exceed.  A higher tree is an error before the
context is asked anything: that of the first node, in the order of the check, which is too
deep or breaks its rule.  An evaluation that ends in anything but an exceeded limit ends in
the same way within every greater limit.  What it answers does not depend on the state if
the answers of the context do not. -/
theorem evaluateValue_maxDepth (hctx : ctx.Unlimited) (e : Expr) (m : Nat) :
    (e.height ≤ m →
      (∀ s n, answer (evaluateValue ⟨m⟩ ctx e s) ≠ .error (.recursionLimit n)) ∧
      ∀ m', e.height ≤ m' → evaluateValue ⟨m'⟩ ctx e = evaluateValue ⟨m⟩ ctx e) ∧
    (m < e.height → ∀ s,
      transcript ⟨m⟩ ctx e s = [] ∧
      ∃ cause, evaluateValue ⟨m⟩ ctx e s = .error cause s ∧ Rejects ⟨m⟩ e 1 cause ∧
        (cause = .recursionLimit m ∨
          ∃ t ∈ e.subtrees, ∃ violation,
            t.checkNode = .error violation ∧ cause = .ofTypeError violation)) ∧
    (∀ s, (∀ n, answer (evaluateValue ⟨m⟩ ctx e s) ≠ .error (.recursionLimit n)) →
      ∀ m', m ≤ m' → evaluateValue ⟨m'⟩ ctx e = evaluateValue ⟨m⟩ ctx e) ∧
    (ctx.Deterministic →
      ∀ s t, answer (evaluateValue ⟨m⟩ ctx e s) = answer (evaluateValue ⟨m⟩ ctx e t)) := by
  refine ⟨?_, ?_, ?_, answer_evaluateValue_eq⟩
  · intro hheight
    refine ⟨neverLimited_evaluateValue hctx hheight, ?_⟩
    intro m' hheight'
    -- Both limits are compared with the lowest one that the tree does not exceed.
    have hlow : ∀ n, checkWithin ⟨e.height⟩ e 1 ≠ .error (.recursionLimit n) :=
      checkWithin_ne_recursionLimit (Nat.le_refl _)
    rw [evaluateValue_eq_of_le hlow hheight', evaluateValue_eq_of_le hlow hheight]
  · intro hheight s
    obtain ⟨hnone, cause, hcause, hrejects⟩ :=
      @rejects_of_tooHigh _ ⟨m⟩ ctx e hheight s
    refine ⟨hnone, cause, hcause, hrejects, ?_⟩
    exact hrejects.tooHigh_or_violation.imp And.right id
  · intro s hanswer m' hle
    refine evaluateValue_eq_of_le ?_ hle
    intro n hcheck
    apply hanswer n
    rw [evaluateValue_of_checkWithin_error ⟨m⟩ ctx hcheck s]
    rfl

/-- A double negation of a variable, in a context that counts the questions. -/
theorem evaluateValue_maxDepth_negated :
    let active : VariableTemplate := ⟨⟨["active"]⟩, some .boolean⟩
    let e : Expr := .not (.not (.variable ⟨["active"]⟩ active))
    let ctx : Context Nat :=
      ⟨fun _ n => .ok (.boolean true) (n + 1), fun _ _ n => .error (.undefinedFunction "f") n,
        fun _ _ n => n⟩
    (∀ s n, answer (evaluateValue ⟨3⟩ ctx e s) ≠ .error (.recursionLimit n)) ∧
      evaluateValue ⟨256⟩ ctx e = evaluateValue ⟨3⟩ ctx e ∧
      evaluateValue ⟨3⟩ ctx e 0 = .ok (.boolean true) 1 ∧
      evaluateValue ⟨4⟩ ctx e = evaluateValue ⟨3⟩ ctx e ∧
      transcript ⟨2⟩ ctx e 0 = [] ∧
      evaluateValue ⟨2⟩ ctx e 0 = .error (.recursionLimit 2) 0 ∧
      answer (evaluateValue ⟨3⟩ ctx e 0) = answer (evaluateValue ⟨3⟩ ctx e 7) := by
  intro active e ctx
  have hctx : ctx.Unlimited :=
    ⟨fun template s n => nofun, fun template values s n => nofun⟩
  have hdet : ctx.Deterministic := ⟨fun _ _ _ => rfl, fun _ _ _ _ => rfl⟩
  obtain ⟨hlow, -, hgreater, hstate⟩ := evaluateValue_maxDepth hctx e 3
  obtain ⟨-, hhigh, -, -⟩ := evaluateValue_maxDepth hctx e 2
  obtain ⟨hnever, hsame⟩ := hlow (by decide)
  obtain ⟨hnone, -⟩ := hhigh (by decide) 0
  exact ⟨hnever, hsame 256 (by decide), rfl, hgreater 0 (hnever 0) 4 (by decide), hnone, rfl,
    hstate hdet 0 7⟩

end Limits

end Evaluation
end Criteria
