import Criteria.Proofs.Consultation
import Criteria.Proofs.Soundness

/-!
# Invariants of an evaluation

With complete calls, a property of the state that is kept by the lookups and by the calls
that the tree gives rise to is kept by the whole evaluation.  Such a call is about a node of
the tree, and the argument values that go with it are those of the arguments there, each of
the kind that its parameter declares.

When the questions are written down, the record is a part of the state, and a property of
all its questions is one that every question keeps.

**Results.**
* `preserves_bind`: two steps in turn keep what both keep.
* `preserves_eval`, `preserves_evaluateValue`: an evaluation keeps what its questions keep.
-/

namespace Criteria
namespace Evaluation

open Outcome

variable {σ α β : Type} {limits : Limits} {ctx : Context σ} {depth : Nat}

section Invariants

variable {I : σ → Prop}

/-- An action does not lead out of the states with a property, however it ends. -/
def Preserves (I : σ → Prop) (x : EStateM EvaluationError σ α) : Prop :=
  ∀ s, I s → I (finalState (x s))

theorem preserves_pure (a : α) :
    Preserves I (pure a : EStateM EvaluationError σ α) :=
  fun _ hs => hs

theorem preserves_ofExcept (x : Except EvaluationError α) :
    Preserves I (ofExcept x : EStateM EvaluationError σ α) := by
  intro s hs
  cases x <;> exact hs

/-- Two steps in turn keep what both keep; the second one goes on from a result of the
first. -/
theorem preserves_bind {x : EStateM EvaluationError σ α}
    {f : α → EStateM EvaluationError σ β} (hx : Preserves I x)
    (hf : ∀ a s s', x s = .ok a s' → Preserves I (f a)) : Preserves I (x >>= f) := by
  intro s hs
  have hfirst := hx s hs
  cases h : x s with
  | ok a s₁ =>
      rw [h] at hfirst
      rw [run_bind_of_ok h]
      exact hf a s s₁ h s₁ hfirst
  | error cause s₁ =>
      rw [h] at hfirst
      rw [run_bind_of_error h]
      exact hfirst

theorem preserves_visit {node : Expr} {work : EStateM EvaluationError σ Value}
    (hobserve : ∀ v s, I s → I (ctx.observe node v s)) (h : Preserves I work) :
    Preserves I (visit limits ctx node depth work) := by
  intro s hs
  by_cases hd : depth ≤ limits.maxDepth
  · rw [visit_of_le hd]
    have hwork := h s hs
    cases hw : work s with
    | ok v s₁ =>
        rw [hw] at hwork
        exact hobserve v s₁ hwork
    | error cause s₁ =>
        rw [hw] at hwork
        exact hwork
  · rw [visit_of_lt (by omega)]
    exact hs

/-- A question keeps what it kept before the kind of its answer is enforced. -/
theorem preserves_expectKind {node : Expr} {declared : Option Kind}
    {ask : EStateM EvaluationError σ Value} (h : Preserves I ask) :
    Preserves I (do
      let v ← ask
      ofExcept (expectKind node declared v)
      pure v) :=
  preserves_bind h fun v _ _ _ =>
    preserves_bind (preserves_ofExcept _) fun _ _ _ _ => preserves_pure v

theorem preserves_mapM {ι : Type} {f : ι → EStateM EvaluationError σ α} {is : List ι}
    (h : ∀ i ∈ is, Preserves I (f i)) : Preserves I (is.mapM f) := by
  induction is with
  | nil => exact preserves_pure []
  | cons i is ih =>
      rw [List.mapM_cons]
      refine preserves_bind (h i List.mem_cons_self) fun a _ _ _ => ?_
      refine preserves_bind ?_ fun as _ _ _ => preserves_pure (a :: as)
      exact ih fun i' hi' => h i' (List.mem_cons_of_mem i hi')

theorem preserves_evalAll {es : List Expr}
    (ih : ∀ e ∈ es, Preserves I (eval limits ctx e depth)) :
    Preserves I (evalAll limits ctx es depth) := by
  rw [evalAll_eq_mapM]
  exact preserves_mapM ih

theorem preserves_evalArguments (node : Expr) {ps : List Parameter} {es : List Expr}
    (ih : ∀ e ∈ es, Preserves I (eval limits ctx e depth)) :
    Preserves I (evalArguments limits ctx node ps es depth) := by
  rw [evalArguments_eq_mapM]
  refine preserves_mapM fun x hx => ?_
  refine preserves_bind (ih x.2 (List.of_mem_zip hx).2) fun v _ _ _ => ?_
  exact preserves_bind (preserves_ofExcept _) fun _ _ _ _ => preserves_pure v

/-- The values are those of the arguments, in their order, each from some run. -/
def ValuesOf (limits : Limits) (ctx : Context σ) (arguments : List Expr)
    (values : List Value) : Prop :=
  List.Forall₂ (fun a v => ∃ depth s s', eval limits ctx a depth s = .ok v s')
    arguments values

/-- A call that an evaluation of a tree may make: the tree has a call of the template, the
argument values are those of the arguments there, and each is of the kind that its
parameter declares. -/
structure Due (limits : Limits) (ctx : Context σ) (e : Expr)
    (template : FunctionTemplate Expr) (values : List Value) : Prop where
  origin : ∃ path arguments, .call path template arguments ∈ e.subtrees ∧
    ValuesOf limits ctx arguments values
  kinds : List.Forall₂ (fun p v => Kind.Agrees p.kind v.kind) template.parameters values

theorem Due.of_child {c e : Expr} {template : FunctionTemplate Expr}
    {values : List Value} (hc : c ∈ e.children) (h : Due limits ctx c template values) :
    Due limits ctx e template values := by
  obtain ⟨path, arguments, hmem, hvalues⟩ := h.origin
  exact ⟨⟨path, arguments, Expr.mem_subtrees_of_child hc hmem, hvalues⟩, h.kinds⟩

/-- The evaluation of a tree with complete calls keeps what the lookups keep and the calls
that are due. -/
theorem preserves_eval {e : Expr} (complete : e.CallsComplete)
    (hlookup : ∀ template, Preserves I (ctx.lookup template))
    (hinvoke : ∀ template values, Due limits ctx e template values →
      Preserves I (ctx.invoke template values))
    (hobserve : ∀ node v s, I s → I (ctx.observe node v s)) :
    Preserves I (eval limits ctx e depth) := by
  induction e using Expr.child_induction generalizing depth with
  | node e ih =>
      have children : ∀ c ∈ e.children, Preserves I (eval limits ctx c (depth + 1)) :=
        fun c hc => ih c hc (complete.child hc) fun template values hdue =>
          hinvoke template values (hdue.of_child hc)
      match e with
      | .constant (.string text) =>
          exact preserves_visit (hobserve _) (preserves_pure _)
      | .constant (.number d) =>
          exact preserves_visit (hobserve _) (preserves_pure _)
      | .constant (.set members) =>
          refine preserves_visit (hobserve _) ?_
          exact preserves_bind (preserves_evalAll children) fun vs _ _ _ =>
            preserves_ofExcept _
      | .placeholder p =>
          exact preserves_visit (hobserve _) (preserves_ofExcept (.error _))
      | .variable path template =>
          exact preserves_visit (hobserve _) (preserves_expectKind (hlookup template))
      | .call path template arguments =>
          refine preserves_visit (hobserve _) ?_
          refine preserves_bind (preserves_evalArguments _ children) fun vs s s' hvs => ?_
          obtain ⟨hvalues, hkinds⟩ :=
            evalArguments_forall₂ (Q := fun a v => ∃ depth s s',
              eval limits ctx a depth s = .ok v s')
              (fun a _ s s' v hv => ⟨depth + 1, s, s', hv⟩) complete.self hvs
          have hdue : Due limits ctx (.call path template arguments) template vs :=
            ⟨⟨path, arguments, Expr.self_mem_subtrees _, hvalues⟩, hkinds⟩
          exact preserves_expectKind (hinvoke template vs hdue)
      | .not operand =>
          refine preserves_visit (hobserve _) ?_
          exact preserves_bind (children operand (by simp [Expr.children])) fun v _ _ _ =>
            preserves_ofExcept _
      | .binary op left right =>
          refine preserves_visit (hobserve _) ?_
          refine preserves_bind (children left (by simp [Expr.children])) fun l _ _ _ => ?_
          exact preserves_bind (children right (by simp [Expr.children])) fun r _ _ _ =>
            preserves_ofExcept _

theorem preserves_evaluateValue {e : Expr} (complete : e.CallsComplete)
    (hlookup : ∀ template, Preserves I (ctx.lookup template))
    (hinvoke : ∀ template values, Due limits ctx e template values →
      Preserves I (ctx.invoke template values))
    (hobserve : ∀ node v s, I s → I (ctx.observe node v s)) :
    Preserves I (evaluateValue limits ctx e) :=
  preserves_bind (preserves_ofExcept _) fun _ _ _ _ =>
    preserves_eval complete hlookup hinvoke hobserve

end Invariants

end Evaluation
end Criteria
