import Criteria.Proofs.Soundness

/-!
# Values without a state

An oracle fixes the answer to every question in advance.  Under an oracle a tree has an
outcome of its own, read off its nodes without a state and without a limit of depth.  A
context that always answers alike follows an oracle, whatever becomes of its state, and
an evaluation in it that reaches the lowest leaf ends in that outcome.

**Results.**
* `Context.Deterministic.follows`: a deterministic context follows an oracle.
* `answer_eval`: within the limit, an evaluation answers what the tree denotes.
* `evaluateValue_eq_ok_iff`: a tree has a value when it passes the check, is within the
  limit and denotes this value.
* `evaluateValue_eq_ok_iff_denote`: with complete calls the check need not be asked.
-/

namespace Criteria

open Outcome

/-- The answers to all questions, given in advance. -/
structure Oracle where
  value : VariableTemplate → Except EvaluationError Value
  result : FunctionTemplate Expr → List Value → Except EvaluationError Value

/-- An assignment answers in advance. -/
def Assignment.oracle (a : Assignment) : Oracle :=
  ⟨a.value, a.result⟩

namespace Context

variable {σ : Type} {ctx : Context σ} {o : Oracle}

/-- In every state the context answers as the oracle does. -/
structure Follows (ctx : Context σ) (o : Oracle) : Prop where
  lookup : ∀ template s, answer (ctx.lookup template s) = o.value template
  invoke : ∀ template values s,
    answer (ctx.invoke template values s) = o.result template values

/-- The context answers a question alike in every state. -/
structure Deterministic (ctx : Context σ) : Prop where
  lookup : ∀ template s s',
    answer (ctx.lookup template s) = answer (ctx.lookup template s')
  invoke : ∀ template values s s',
    answer (ctx.invoke template values s) = answer (ctx.invoke template values s')

/-- What the context answers in a state. -/
def oracleAt (ctx : Context σ) (s : σ) : Oracle where
  value template := answer (ctx.lookup template s)
  result template values := answer (ctx.invoke template values s)

theorem Deterministic.follows (h : ctx.Deterministic) (s : σ) :
    ctx.Follows (ctx.oracleAt s) where
  lookup template s' := h.lookup template s' s
  invoke template values s' := h.invoke template values s' s

theorem Follows.deterministic (h : ctx.Follows o) : ctx.Deterministic where
  lookup template s s' := (h.lookup template s).trans (h.lookup template s').symm
  invoke template values s s' :=
    (h.invoke template values s).trans (h.invoke template values s').symm

end Context

theorem Assignment.follows {σ : Type} (a : Assignment) :
    (a.context : Context σ).Follows a.oracle where
  lookup template s := answer_ofExcept (a.value template) s
  invoke template values s := answer_ofExcept (a.result template values) s

namespace Oracle

open Evaluation

/-- The context that keeps no state and asks the oracle. -/
def context {σ : Type} (o : Oracle) : Context σ where
  lookup template := ofExcept (o.value template)
  invoke template values := ofExcept (o.result template values)

theorem follows {σ : Type} (o : Oracle) : (o.context : Context σ).Follows o where
  lookup template s := answer_ofExcept (o.value template) s
  invoke template values s := answer_ofExcept (o.result template values) s

section Denote

variable (o : Oracle)

mutual

/-- The outcome of a tree under an oracle. -/
def denote : Expr → Except EvaluationError Value
  | .constant (.string s) => .ok (.string s)
  | .constant (.number d) => .ok (.number d)
  | .constant (.set members) => do
      let values ← denoteAll members
      collect (.constant (.set members)) values
  | .placeholder p => .error (.unbound p.render)
  | .variable path template => do
      let v ← o.value template
      expectKind (.variable path template) template.kind v
      pure v
  | .call path template arguments => do
      let values ← denoteArguments (.call path template arguments)
        template.parameters arguments
      let v ← o.result template values
      expectKind (.call path template arguments) template.returns v
      pure v
  | .not operand => do
      let v ← denote operand
      negation (.not operand) v
  | .binary op left right => do
      let a ← denote left
      let b ← denote right
      operation (.binary op left right) op a b
termination_by structural e => e

/-- The values of trees in turn. -/
def denoteAll : List Expr → Except EvaluationError (List Value)
  | [] => .ok []
  | e :: es => do
      let v ← denote e
      let vs ← denoteAll es
      pure (v :: vs)
termination_by structural es => es

/-- The values of arguments in turn, each for its parameter. -/
def denoteArguments (node : Expr) :
    List Parameter → List Expr → Except EvaluationError (List Value)
  | p :: ps, e :: es => do
      let v ← denote e
      expectArgument node p v
      let vs ← denoteArguments node ps es
      pure (v :: vs)
  | _, _ => .ok []
termination_by structural _ es => es

end

end Denote

variable {o : Oracle}

theorem denoteAll_eq_ok_iff {es : List Expr} {vs : List Value} :
    o.denoteAll es = .ok vs ↔ List.Forall₂ (fun e v => o.denote e = .ok v) es vs := by
  induction es generalizing vs with
  | nil => simp [denoteAll, eq_comm]
  | cons e es ih =>
      rw [denoteAll, bind_eq_ok_iff, List.forall₂_cons_left_iff]
      constructor
      · rintro ⟨v, hv, h⟩
        obtain ⟨vs', hvs, h⟩ := bind_eq_ok_iff.mp h
        cases h
        exact ⟨v, vs', hv, ih.mp hvs, rfl⟩
      · rintro ⟨v, vs', hv, hvs, rfl⟩
        exact ⟨v, hv, bind_eq_ok_iff.mpr ⟨vs', ih.mpr hvs, rfl⟩⟩

/-- Arguments have values when each of them has one of the kind that its parameter
takes. -/
theorem denoteArguments_eq_ok_iff {node : Expr} {ps : List Parameter} {es : List Expr}
    {vs : List Value} :
    o.denoteArguments node ps es = .ok vs ↔
      List.Forall₂ (fun x v => o.denote x.2 = .ok v ∧ Kind.Agrees x.1.kind v.kind)
        (ps.zip es) vs := by
  induction es generalizing ps vs with
  | nil => cases ps <;> simp [denoteArguments, eq_comm]
  | cons e es ih =>
      cases ps with
      | nil => simp [denoteArguments, eq_comm]
      | cons p ps =>
          rw [denoteArguments, List.zip_cons_cons, List.forall₂_cons_left_iff,
            bind_eq_ok_iff]
          constructor
          · rintro ⟨v, hv, h⟩
            obtain ⟨⟨⟩, hkind, h⟩ := bind_eq_ok_iff.mp h
            obtain ⟨rest, hrest, h⟩ := bind_eq_ok_iff.mp h
            cases h
            exact ⟨v, rest, ⟨hv, expectArgument_eq_ok_iff.mp hkind⟩, ih.mp hrest, rfl⟩
          · rintro ⟨v, rest, ⟨hv, hkind⟩, hrest, rfl⟩
            refine ⟨v, hv, bind_eq_ok_iff.mpr ⟨(), expectArgument_eq_ok_iff.mpr hkind, ?_⟩⟩
            exact bind_eq_ok_iff.mpr ⟨rest, ih.mpr hrest, rfl⟩

/-- An answer of a kind that is not declared is no value. -/
theorem expectKind_bind_eq_ok_iff {node : Expr} {declared : Option Kind}
    {x : Except EvaluationError Value} {v : Value} :
    (do
      let w ← x
      expectKind node declared w
      pure w) = .ok v ↔ x = .ok v ∧ Kind.Agrees declared v.kind := by
  rw [bind_eq_ok_iff]
  constructor
  · rintro ⟨w, hw, h⟩
    obtain ⟨⟨⟩, hkind, h⟩ := bind_eq_ok_iff.mp h
    cases h
    exact ⟨hw, expectKind_eq_ok_iff.mp hkind⟩
  · rintro ⟨hv, hkind⟩
    exact ⟨v, hv, bind_eq_ok_iff.mpr ⟨(), expectKind_eq_ok_iff.mpr hkind, rfl⟩⟩

section Nodes

variable {v : Value}

theorem denote_set_eq_ok_iff {members : List Expr} :
    o.denote (.set members) = .ok v ↔
      ∃ vs, List.Forall₂ (fun e w => o.denote e = .ok w) members vs ∧
        Value.ofMembers vs = .ok v := by
  simp only [denote, bind_eq_ok_iff, denoteAll_eq_ok_iff, collect, mapError_eq_ok_iff]

theorem denote_variable_eq_ok_iff {path : Path} {template : VariableTemplate} :
    o.denote (.variable path template) = .ok v ↔
      o.value template = .ok v ∧ Kind.Agrees template.kind v.kind :=
  expectKind_bind_eq_ok_iff

theorem denote_call_eq_ok_iff {path : Path} {template : FunctionTemplate Expr}
    {arguments : List Expr} :
    o.denote (.call path template arguments) = .ok v ↔
      ∃ vs, List.Forall₂ (fun x w => o.denote x.2 = .ok w ∧ Kind.Agrees x.1.kind w.kind)
          (template.parameters.zip arguments) vs ∧
        o.result template vs = .ok v ∧ Kind.Agrees template.returns v.kind := by
  rw [denote, bind_eq_ok_iff]
  simp only [denoteArguments_eq_ok_iff, expectKind_bind_eq_ok_iff]

theorem negation_eq_ok_iff_boolean {node : Expr} {w : Value} :
    negation node v = .ok w ↔ ∃ b, v = .boolean b ∧ w = .boolean !b := by
  constructor
  · intro h
    obtain ⟨b, rfl⟩ := kind_eq_boolean_iff.mp
      (expectBoolean_some.mp (negation_eq_ok_iff.mp ⟨w, h⟩))
    cases h
    exact ⟨b, rfl, rfl⟩
  · rintro ⟨b, rfl, rfl⟩
    rfl

theorem denote_not_eq_ok_iff {operand : Expr} :
    o.denote (.not operand) = .ok v ↔
      ∃ b, o.denote operand = .ok (.boolean b) ∧ v = .boolean !b := by
  simp only [denote, bind_eq_ok_iff, negation_eq_ok_iff_boolean]
  constructor
  · rintro ⟨_, h, b, rfl, rfl⟩
    exact ⟨b, h, rfl⟩
  · rintro ⟨b, h, rfl⟩
    exact ⟨_, h, b, rfl, rfl⟩

theorem denote_binary_eq_ok_iff {op : BinaryOp} {left right : Expr} :
    o.denote (.binary op left right) = .ok v ↔
      ∃ l r, o.denote left = .ok l ∧ o.denote right = .ok r ∧
        operation (.binary op left right) op l r = .ok v := by
  simp only [denote, bind_eq_ok_iff]
  constructor
  · rintro ⟨l, hl, r, hr, h⟩
    exact ⟨l, r, hl, hr, h⟩
  · rintro ⟨l, r, hl, hr, h⟩
    exact ⟨l, hl, r, hr, h⟩

end Nodes

end Oracle

namespace Evaluation

variable {σ : Type} {limits : Limits} {ctx : Context σ} {o : Oracle}

section Answers

variable {depth : Nat}

theorem answer_visit {node : Expr} {work : EStateM EvaluationError σ Value}
    {x : Except EvaluationError Value} {s : σ}
    (hd : depth ≤ limits.maxDepth) (h : answer (work s) = x) :
    answer (visit limits ctx node depth work s) = x := by
  rw [visit_of_le hd, ← h]
  cases work s <;> rfl

theorem answer_evalAll {es : List Expr}
    (ih : ∀ e ∈ es, ∀ s, answer (eval limits ctx e depth s) = o.denote e) (s : σ) :
    answer (evalAll limits ctx es depth s) = o.denoteAll es := by
  induction es generalizing s with
  | nil => rfl
  | cons e es hes =>
      rw [evalAll, Oracle.denoteAll]
      refine answer_bind (ih e List.mem_cons_self s) fun v s₁ => ?_
      refine answer_bind ?_ fun _ _ => rfl
      exact hes (fun e' he' => ih e' (List.mem_cons_of_mem e he')) s₁

theorem answer_evalArguments (node : Expr) {ps : List Parameter} {es : List Expr}
    (ih : ∀ e ∈ es, ∀ s, answer (eval limits ctx e depth s) = o.denote e) (s : σ) :
    answer (evalArguments limits ctx node ps es depth s) =
      o.denoteArguments node ps es := by
  induction es generalizing ps s with
  | nil => cases ps <;> rfl
  | cons e es hes =>
      cases ps with
      | nil => rfl
      | cons p ps =>
          rw [evalArguments, Oracle.denoteArguments]
          refine answer_bind (ih e List.mem_cons_self s) fun v s₁ => ?_
          refine answer_bind (answer_ofExcept _ s₁) fun _ s₂ => ?_
          refine answer_bind ?_ fun _ _ => rfl
          exact hes (fun e' he' => ih e' (List.mem_cons_of_mem e he')) s₂

/-- An answer whose kind is enforced. -/
theorem answer_expectKind {node : Expr} {declared : Option Kind}
    {ask : EStateM EvaluationError σ Value} {x : Except EvaluationError Value} {s : σ}
    (h : answer (ask s) = x) :
    answer ((do
      let v ← ask
      ofExcept (expectKind node declared v)
      pure v : EStateM EvaluationError σ Value) s) =
    (do
      let v ← x
      expectKind node declared v
      pure v) :=
  answer_bind h fun _ s₁ => answer_bind (answer_ofExcept _ s₁) fun _ _ => rfl

/-- Within the limit, an evaluation in a context that follows an oracle answers what the
tree denotes. -/
theorem answer_eval (h : ctx.Follows o) {e : Expr}
    (within : e.height + depth ≤ limits.maxDepth + 1) (s : σ) :
    answer (eval limits ctx e depth s) = o.denote e := by
  induction e using Expr.child_induction generalizing depth s with
  | node e ih =>
      rw [Expr.height_eq] at within
      have hd : depth ≤ limits.maxDepth := by omega
      have children : ∀ c ∈ e.children, ∀ s,
          answer (eval limits ctx c (depth + 1) s) = o.denote c := by
        intro c hc s
        have hheight :=
          heightAll_le_iff.mp (Nat.le_refl (Expr.heightAll e.children)) c hc
        exact ih c hc (by omega) s
      match e with
      | .constant (.string text) => exact answer_visit hd rfl
      | .constant (.number d) => exact answer_visit hd rfl
      | .constant (.set members) =>
          refine answer_visit hd ?_
          exact answer_bind (answer_evalAll children s) fun vs s₁ => answer_ofExcept _ s₁
      | .placeholder p => exact answer_visit hd rfl
      | .variable path template =>
          exact answer_visit hd (answer_expectKind (h.lookup template s))
      | .call path template arguments =>
          refine answer_visit hd ?_
          refine answer_bind (answer_evalArguments _ children s) fun vs s₁ => ?_
          exact answer_expectKind (h.invoke template vs s₁)
      | .not operand =>
          refine answer_visit hd ?_
          have hoperand := children operand (by simp [Expr.children]) s
          exact answer_bind hoperand fun v s₁ => answer_ofExcept _ s₁
      | .binary op left right =>
          refine answer_visit hd ?_
          have hleft := children left (by simp [Expr.children]) s
          refine answer_bind hleft fun l s₁ => ?_
          have hright := children right (by simp [Expr.children]) s₁
          exact answer_bind hright fun r s₂ => answer_ofExcept _ s₂

end Answers

section Values

variable {e : Expr} {v : Value}

theorem answer_evaluateValue (h : ctx.Follows o)
    (hcheck : checkWithin limits e 1 = .ok ()) (s : σ) :
    answer (evaluateValue limits ctx e s) = o.denote e := by
  rw [evaluateValue, hcheck, run_bind_of_ok (run_ofExcept_ok () s)]
  exact answer_eval h ((checkWithin_eq_ok_iff e 1).mp hcheck).2 s

/-- A tree has a value exactly when it passes the check, is no higher than the limit and
denotes this value. -/
theorem evaluateValue_eq_ok_iff (h : ctx.Follows o) (s : σ) :
    (∃ s', evaluateValue limits ctx e s = .ok v s') ↔
      (e.check = .ok () ∧ e.height ≤ limits.maxDepth) ∧ o.denote e = .ok v := by
  rw [← answer_eq_ok_iff, ← Nat.add_le_add_iff_right (n := 1), ← checkWithin_eq_ok_iff]
  cases hcheck : checkWithin limits e 1 with
  | ok _ => simp [answer_evaluateValue h hcheck]
  | error cause =>
      rw [evaluateValue_of_checkWithin_error limits ctx hcheck]
      simp [answer]

/-- What a tree with complete calls denotes shows that it passes the check, and agrees with
what is known of its kind. -/
theorem check_of_denote (complete : e.CallsComplete) (h : o.denote e = .ok v) :
    e.check = .ok () ∧ Kind.Agrees e.staticKind v.kind := by
  have hanswer : answer (eval ⟨e.height⟩ (o.context : Context Unit) e 1 ()) = .ok v := by
    rw [answer_eval o.follows (Nat.le_refl _), h]
  obtain ⟨s', hv⟩ := answer_eq_ok_iff.mp hanswer
  obtain ⟨hwithin, hkind⟩ := eval_sound complete hv
  exact ⟨((checkWithin_eq_ok_iff e 1).mp hwithin).1, hkind⟩

/-- With complete calls the check need not be asked. -/
theorem evaluateValue_eq_ok_iff_denote (h : ctx.Follows o) (complete : e.CallsComplete)
    (s : σ) :
    (∃ s', evaluateValue limits ctx e s = .ok v s') ↔
      e.height ≤ limits.maxDepth ∧ o.denote e = .ok v := by
  rw [evaluateValue_eq_ok_iff h]
  constructor
  · rintro ⟨⟨-, hheight⟩, hv⟩
    exact ⟨hheight, hv⟩
  · rintro ⟨hheight, hv⟩
    exact ⟨⟨(check_of_denote complete hv).1, hheight⟩, hv⟩

end Values

end Evaluation

end Criteria
