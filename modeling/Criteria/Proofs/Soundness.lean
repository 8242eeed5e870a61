import Criteria.Condition
import Criteria.Proofs.Steps
import Mathlib.Data.List.Forall2

/-!
# Static checks reject nothing that has a value

A tree that an evaluation without the first check gives a value passes the static check,
and its static kind, where there is one, is the kind of the value.  So neither the check
before an evaluation nor the check of the root of a condition ever stands in the way of
a truth value.

The proof goes through the tree from the leaves: evaluation visits every node that the
check visits, as long as every call has one argument for each parameter, and what an
operator accepts at run time it accepts all the more of kinds that are not known.

**Results.**
* `checkKinds_mono`: an operand rule that accepts two kinds accepts them when less is known
  of them.
* `eval_sound`: a tree with a value passes the check within the limit.
* `evaluates_without_precheck`: the checks before an evaluation reject no tree that has
  a value.
-/

namespace Criteria

open Outcome

/-- Nothing is known of a kind, or just what is known of another one. -/
def Kind.Vaguer (known more : Option Kind) : Prop :=
  known = none ∨ known = more

section Rules

variable {op : BinaryOp} {left left' right right' : Option Kind}

theorem checkKinds_unknown_left (h : op.checkKinds left right = .ok ()) :
    op.checkKinds none right = .ok () := by
  cases op with
  | equal => rfl
  | notEqual => rfl
  | _ => exact (check_bind_eq_ok_iff.mp h).2

theorem checkKinds_unknown_right (h : op.checkKinds left right = .ok ()) :
    op.checkKinds left none = .ok () := by
  cases op with
  | equal => cases left <;> rfl
  | notEqual => cases left <;> rfl
  | _ => exact check_bind_eq_ok_iff.mpr ⟨(check_bind_eq_ok_iff.mp h).1, rfl⟩

/-- An operand rule that accepts two kinds accepts them when less is known of them. -/
theorem checkKinds_mono
    (hl : Kind.Vaguer left left') (hr : Kind.Vaguer right right')
    (h : op.checkKinds left' right' = .ok ()) :
    op.checkKinds left right = .ok () := by
  rcases hl with rfl | rfl
  · rcases hr with rfl | rfl
    · exact op.checkKinds_unknown
    · exact checkKinds_unknown_left h
  · rcases hr with rfl | rfl
    · exact checkKinds_unknown_right h
    · exact h

theorem checkNegation_mono
    (hl : Kind.Vaguer left left') (h : checkNegation left' = .ok ()) :
    checkNegation left = .ok () := by
  rcases hl with rfl | rfl
  · rfl
  · exact h

/-- Arguments that their parameters take are taken when less is known of their kinds. -/
theorem checkArguments_mono {function function' : String} {ps : List Parameter}
    {es es' : List Expr}
    (hes : List.Forall₂ (fun e e' => Kind.Vaguer e.staticKind e'.staticKind) es es')
    (h : Expr.checkArguments function ps es' = .ok ()) :
    Expr.checkArguments function' ps es = .ok () := by
  induction hes generalizing ps with
  | nil => cases ps <;> rfl
  | @cons e e' es es' he _ ih =>
      cases ps with
      | nil => rfl
      | cons p ps =>
          obtain ⟨hkind, hrest⟩ := Evaluation.checkArguments_cons_eq_ok_iff.mp h
          refine Evaluation.checkArguments_cons_eq_ok_iff.mpr ⟨?_, ih hrest⟩
          intro expected found hexpected hfound
          rcases he with hnone | hsame
          · rw [hnone] at hfound
            cases hfound
          · exact hkind expected found hexpected (hsame ▸ hfound)

theorem checkArguments_of_agrees (function : String) :
    ∀ {ps : List Parameter} {es : List Expr} {vs : List Value},
      List.Forall₂ (fun p v => Kind.Agrees p.kind v.kind) ps vs →
      List.Forall₂ (fun e v => Kind.Agrees e.staticKind v.kind) es vs →
      Expr.checkArguments function ps es = .ok ()
  | [], _, _, _, _ => rfl
  | _ :: _, _, [], h, _ => by cases h
  | p :: ps, [], _ :: _, _, h => by cases h
  | p :: ps, e :: es, v :: vs, hps, hes => by
      obtain ⟨hp, hps⟩ := List.forall₂_cons.mp hps
      obtain ⟨he, hes⟩ := List.forall₂_cons.mp hes
      refine Evaluation.checkArguments_cons_eq_ok_iff.mpr
        ⟨?_, checkArguments_of_agrees function hps hes⟩
      intro expected found hexpected hfound
      rw [hexpected] at hp
      rw [hfound] at he
      simp only [Kind.Agrees, reduceCtorEq, false_or, Option.some.injEq] at hp he
      rw [hp, he]

end Rules

namespace Evaluation

variable {σ : Type} {limits : Limits} {ctx : Context σ}

section Lists

variable {Q : Expr → Value → Prop} {depth : Nat}

/-- What the evaluation of each tree gives holds of the trees of a list in turn. -/
theorem evalAll_forall₂ {es : List Expr} {vs : List Value} {s s' : σ}
    (ih : ∀ e ∈ es, ∀ s s' v, eval limits ctx e depth s = .ok v s' → Q e v)
    (h : evalAll limits ctx es depth s = .ok vs s') :
    List.Forall₂ Q es vs := by
  induction es generalizing s vs with
  | nil =>
      cases h
      exact .nil
  | cons e es hes =>
      rw [evalAll] at h
      obtain ⟨v, s₁, hv, h⟩ := run_bind_eq_ok_iff.mp h
      obtain ⟨rest, s₂, hrest, h⟩ := run_bind_eq_ok_iff.mp h
      cases h
      refine .cons (ih e List.mem_cons_self s s₁ v hv) (hes ?_ hrest)
      exact fun e' he' => ih e' (List.mem_cons_of_mem e he')

/-- With one argument for each parameter, every argument is evaluated and its value has
the kind that its parameter declares. -/
theorem evalArguments_forall₂ {node : Expr}
    {ps : List Parameter} {es : List Expr} {vs : List Value} {s s' : σ}
    (ih : ∀ e ∈ es, ∀ s s' v, eval limits ctx e depth s = .ok v s' → Q e v)
    (hlen : es.length = ps.length)
    (h : evalArguments limits ctx node ps es depth s = .ok vs s') :
    List.Forall₂ Q es vs ∧
      List.Forall₂ (fun p v => Kind.Agrees p.kind v.kind) ps vs := by
  induction es generalizing ps s vs with
  | nil =>
      cases ps with
      | nil =>
          cases h
          exact ⟨.nil, .nil⟩
      | cons p ps => simp at hlen
  | cons e es hes =>
      cases ps with
      | nil => simp at hlen
      | cons p ps =>
          rw [evalArguments] at h
          obtain ⟨v, s₁, hv, h⟩ := run_bind_eq_ok_iff.mp h
          obtain ⟨⟨⟩, s₂, hp, h⟩ := run_bind_eq_ok_iff.mp h
          obtain ⟨rest, s₃, hrest, h⟩ := run_bind_eq_ok_iff.mp h
          cases h
          obtain ⟨hp, -⟩ := run_ofExcept_eq_ok_iff.mp hp
          obtain ⟨hq, hk⟩ :=
            hes (fun e' he' => ih e' (List.mem_cons_of_mem e he'))
              (by simpa using hlen) hrest
          exact ⟨.cons (ih e List.mem_cons_self s s₁ v hv) hq,
            .cons (expectArgument_eq_ok_iff.mp hp) hk⟩

end Lists

section Nodes

/-- A node passes the check within the limit when it is entered, its children pass one
level deeper and its own rule accepts them. -/
theorem checkWithin_of_children {e : Expr} {depth : Nat}
    (hd : depth ≤ limits.maxDepth)
    (hc : ∀ c ∈ e.children, checkWithin limits c (depth + 1) = .ok ())
    (hn : e.checkNode = .ok ()) :
    checkWithin limits e depth = .ok () := by
  rw [checkWithin_eq, check_bind_eq_ok_iff, check_bind_eq_ok_iff]
  exact ⟨enter_eq_ok_iff.mpr hd, checkAllWithin_eq_ok_iff.mpr hc,
    checkNode_eq_ok_iff.mpr hn⟩

/-- A tree that has a value passes the check, and what is known of its kind agrees with
the value. -/
theorem eval_sound {e : Expr} {depth : Nat} {s s' : σ} {v : Value}
    (complete : e.CallsComplete)
    (h : eval limits ctx e depth s = .ok v s') :
    checkWithin limits e depth = .ok () ∧ Kind.Agrees e.staticKind v.kind := by
  induction e using Expr.child_induction generalizing depth s s' v with
  | node e ih =>
      have children : ∀ c ∈ e.children, ∀ s s' v,
          eval limits ctx c (depth + 1) s = .ok v s' →
            checkWithin limits c (depth + 1) = .ok () ∧
              Kind.Agrees c.staticKind v.kind :=
        fun c hc s s' v hv => ih c hc (complete.child hc) hv
      cases e with
      | constant c =>
          cases c with
          | string text =>
              obtain ⟨hd, s₁, hw, -⟩ := visit_eq_ok_iff.mp h
              cases hw
              exact ⟨checkWithin_of_children hd (by simp [Expr.children]) rfl,
                Kind.agrees_some _⟩
          | number d =>
              obtain ⟨hd, s₁, hw, -⟩ := visit_eq_ok_iff.mp h
              cases hw
              exact ⟨checkWithin_of_children hd (by simp [Expr.children]) rfl,
                Kind.agrees_some _⟩
          | set members =>
              obtain ⟨hd, s₁, hw, -⟩ := visit_eq_ok_iff.mp h
              obtain ⟨values, s₂, hall, hw⟩ := run_bind_eq_ok_iff.mp hw
              obtain ⟨hv, -⟩ := run_ofExcept_eq_ok_iff.mp hw
              have hmembers := evalAll_forall₂ children hall
              have hchecked := ((List.forall₂_and_left _ _).mp hmembers).1
              refine ⟨checkWithin_of_children hd hchecked rfl, ?_⟩
              rw [kind_of_collect hv]
              exact Kind.agrees_some _
      | placeholder p =>
          obtain ⟨-, s₁, hw, -⟩ := visit_eq_ok_iff.mp h
          cases hw
      | «variable» path template =>
          obtain ⟨hd, s₁, hw, -⟩ := visit_eq_ok_iff.mp h
          obtain ⟨w, s₂, -, hw⟩ := run_bind_eq_ok_iff.mp hw
          obtain ⟨⟨⟩, s₃, hk, hw⟩ := run_bind_eq_ok_iff.mp hw
          cases hw
          obtain ⟨hk, -⟩ := run_ofExcept_eq_ok_iff.mp hk
          exact ⟨checkWithin_of_children hd (by simp [Expr.children]) rfl,
            expectKind_eq_ok_iff.mp hk⟩
      | call path template arguments =>
          obtain ⟨hd, s₁, hw, -⟩ := visit_eq_ok_iff.mp h
          obtain ⟨values, s₂, hargs, hw⟩ := run_bind_eq_ok_iff.mp hw
          obtain ⟨w, s₃, -, hw⟩ := run_bind_eq_ok_iff.mp hw
          obtain ⟨⟨⟩, s₄, hk, hw⟩ := run_bind_eq_ok_iff.mp hw
          cases hw
          obtain ⟨hk, -⟩ := run_ofExcept_eq_ok_iff.mp hk
          obtain ⟨hes, hps⟩ := evalArguments_forall₂ children complete.self hargs
          obtain ⟨hchecked, hkinds⟩ := (List.forall₂_and_left _ _).mp hes
          exact ⟨checkWithin_of_children hd hchecked
              (checkArguments_of_agrees _ hps hkinds),
            expectKind_eq_ok_iff.mp hk⟩
      | not operand =>
          obtain ⟨hd, s₁, hw, -⟩ := visit_eq_ok_iff.mp h
          obtain ⟨w, s₂, hop, hw⟩ := run_bind_eq_ok_iff.mp hw
          obtain ⟨hv, -⟩ := run_ofExcept_eq_ok_iff.mp hw
          obtain ⟨hcw, hk⟩ := children operand (by simp [Expr.children]) _ _ _ hop
          have hrule := checkNegation_mono hk (negation_eq_ok_iff.mp ⟨v, hv⟩)
          refine ⟨checkWithin_of_children hd (by simpa [Expr.children]) ?_, ?_⟩
          · exact mapError_eq_ok_iff.mpr hrule
          · rw [kind_of_negation hv]
            exact Kind.agrees_some _
      | binary op left right =>
          obtain ⟨hd, s₁, hw, -⟩ := visit_eq_ok_iff.mp h
          obtain ⟨l, s₂, hl, hw⟩ := run_bind_eq_ok_iff.mp hw
          obtain ⟨r, s₃, hr, hw⟩ := run_bind_eq_ok_iff.mp hw
          obtain ⟨hv, -⟩ := run_ofExcept_eq_ok_iff.mp hw
          obtain ⟨hlw, hlk⟩ := children left (by simp [Expr.children]) _ _ _ hl
          obtain ⟨hrw, hrk⟩ := children right (by simp [Expr.children]) _ _ _ hr
          have hrule := checkKinds_mono hlk hrk (operation_eq_ok_iff.mp ⟨v, hv⟩)
          refine ⟨checkWithin_of_children hd (by simp [Expr.children, hlw, hrw]) ?_, ?_⟩
          · exact mapError_eq_ok_iff.mpr hrule
          · rw [kind_of_operation hv]
            exact Kind.agrees_some _

/-- Where an evaluation without any check has a value, the tree passes the static
check, its static kind is unknown or that of the value, the evaluation with the first
check has the same value, and a truth value is that of a condition. -/
theorem evaluates_without_precheck {e : Expr} {s s' : σ} {v : Value}
    (complete : e.CallsComplete)
    (h : eval limits ctx e 1 s = .ok v s') :
    e.check = .ok () ∧
      (e.staticKind = none ∨ e.staticKind = some v.kind) ∧
      evaluateValue limits ctx e s = .ok v s' ∧
      ∀ b, v = .boolean b →
        ∃ c, Condition.ofExpr limits e = .ok c ∧ c.evaluate ctx s = .ok b s' := by
  obtain ⟨hwithin, hkind⟩ := eval_sound complete h
  have hvalue : evaluateValue limits ctx e s = .ok v s' := by
    rw [evaluateValue, hwithin, run_bind_of_ok (run_ofExcept_ok () s)]
    exact h
  refine ⟨((checkWithin_eq_ok_iff e 1).mp hwithin).1, hkind, hvalue, ?_⟩
  rintro b rfl
  have hroot : e.mayBeBoolean = true := by
    rcases hkind with hk | hk <;> simp [Expr.mayBeBoolean, hk, Value.kind]
  refine ⟨⟨e, limits⟩, (Condition.ofExpr_eq_ok_iff limits e _).mpr ⟨hroot, rfl⟩, ?_⟩
  have htruth : evaluate limits ctx e s = .ok b s' := by
    rw [evaluate, run_bind_of_ok hvalue]
    rfl
  simp only [Condition.evaluate, htruth]

theorem evaluates_without_precheck_daysSince :
    let template : FunctionTemplate Expr :=
      ⟨⟨["daysSince"]⟩, [⟨"date", some .string⟩], [], none⟩
    let call : Expr := .call ⟨["daysSince"]⟩ template [.string "2024-01-01"]
    let e : Expr := .not (.binary .lessThan call (.number (.ofInt 7)))
    let ctx : Context Unit :=
      ⟨fun _ => throw (.undefinedVariable ""), fun _ _ => pure (.number (.ofInt 9)),
        fun _ _ s => s⟩
    e.CallsComplete ∧ eval {} ctx e 1 () = .ok (.boolean true) () ∧
      e.check = .ok () ∧ (e.staticKind = none ∨ e.staticKind = some .boolean) ∧
      evaluateValue {} ctx e () = .ok (.boolean true) () ∧
      ∃ c, Condition.ofExpr {} e = .ok c ∧ c.evaluate ctx () = .ok true () := by
  intro template call e ctx
  have complete : e.CallsComplete := by decide
  have h : eval {} ctx e 1 () = .ok (.boolean true) () := rfl
  obtain ⟨hcheck, hkind, hvalue, htruth⟩ := evaluates_without_precheck complete h
  exact ⟨complete, h, hcheck, hkind, hvalue, htruth true rfl⟩

end Nodes

end Evaluation
end Criteria
