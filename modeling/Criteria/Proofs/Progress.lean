import Criteria.Proofs.Soundness

/-!
# Checked trees have values

A bound tree that passes the static check, whose templates all declare kinds and which
is not too high, has a value of its static kind in every context that keeps to the
declared kinds.  There is one exception, which the static check does not look for: a
set literal with a member whose kind is known to be that of sets.

The proof goes through the tree from the leaves and follows, along with the values, whether
such a set literal has been met; `EndsWell` says both at once, so that it can be carried
through a sequence of steps.

**Results.**
* `EndsWell.bind`: two steps that end well, one after the other, end well.
* `eval_progress`: what becomes of a checked tree at any depth.
* `evaluateValue_progress`: a checked tree has a value, or nests a set.
-/

namespace Criteria

open Outcome

namespace Expr

/-- A variable or a call of a template that declares the kind of its value; other nodes
ask for nothing. -/
def KindDeclared : Expr → Prop
  | .variable _ template => template.kind ≠ none
  | .call _ template _ => template.returns ≠ none
  | _ => True

instance : DecidablePred KindDeclared
  | .constant _ => isTrue trivial
  | .placeholder _ => isTrue trivial
  | .variable _ template => inferInstanceAs (Decidable (template.kind ≠ none))
  | .call _ template _ => inferInstanceAs (Decidable (template.returns ≠ none))
  | .not _ => isTrue trivial
  | .binary _ _ _ => isTrue trivial

/-- A set literal with a member that is known to be a set. -/
def NestsHere : Expr → Prop
  | .constant (.set members) => ∃ m ∈ members, m.staticKind = some .set
  | _ => False

/-- Somewhere in the tree stands a set literal with a member that is known to be a
set. -/
def NestsSet (e : Expr) : Prop :=
  ∃ t ∈ e.subtrees, t.NestsHere

instance : DecidablePred NestsHere
  | .constant (.set members) =>
      inferInstanceAs (Decidable (∃ m ∈ members, m.staticKind = some .set))
  | .constant (.string _) => isFalse not_false
  | .constant (.number _) => isFalse not_false
  | .placeholder _ => isFalse not_false
  | .variable _ _ => isFalse not_false
  | .call _ _ _ => isFalse not_false
  | .not _ => isFalse not_false
  | .binary _ _ _ => isFalse not_false

instance (e : Expr) : Decidable e.NestsSet :=
  inferInstanceAs (Decidable (∃ t ∈ e.subtrees, t.NestsHere))

theorem nestsSet_iff {e : Expr} :
    e.NestsSet ↔ (∃ c ∈ e.children, c.NestsSet) ∨ e.NestsHere := by
  constructor
  · rintro ⟨t, ht, hn⟩
    rcases mem_subtrees_iff.mp ht with rfl | ⟨c, hc, ht⟩
    · exact Or.inr hn
    · exact Or.inl ⟨c, hc, t, ht, hn⟩
  · rintro (⟨c, hc, t, ht, hn⟩ | hn)
    · exact ⟨t, mem_subtrees_of_child hc ht, hn⟩
    · exact ⟨e, self_mem_subtrees e, hn⟩

/-- What a tree has to be for its evaluation to make progress. -/
structure Checked (e : Expr) : Prop where
  bound : e.isBound = true
  complete : e.CallsComplete
  declared : e.Everywhere KindDeclared
  checked : e.check = .ok ()

theorem Checked.child {c e : Expr} (h : e.Checked) (hc : c ∈ e.children) :
    c.Checked where
  bound := isBound_of_mem_children h.bound hc
  complete := h.complete.child hc
  declared := h.declared.child hc
  checked := (Evaluation.check_eq_ok_iff.mp h.checked).1 c hc

theorem Checked.node {e : Expr} (h : e.Checked) : e.checkNode = .ok () :=
  (Evaluation.check_eq_ok_iff.mp h.checked).2

end Expr

/-- In every state the context answers the variables and calls of a tree with values of
the kinds that their templates declare, if the arguments have the kinds that the
parameters declare. -/
structure Context.Answers {σ : Type} (ctx : Context σ) (e : Expr) : Prop where
  lookup : ∀ path template, .variable path template ∈ e.subtrees →
    ∀ k, template.kind = some k → ∀ s,
      ∃ v s', ctx.lookup template s = .ok v s' ∧ v.kind = k
  invoke : ∀ path template arguments, .call path template arguments ∈ e.subtrees →
    ∀ k, template.returns = some k → ∀ values,
      List.Forall₂ (fun p v => Kind.Agrees p.kind v.kind) template.parameters values →
        ∀ s, ∃ v s', ctx.invoke template values s = .ok v s' ∧ v.kind = k

theorem Context.Answers.child {σ : Type} {ctx : Context σ} {c e : Expr}
    (h : ctx.Answers e) (hc : c ∈ e.children) :
    ctx.Answers c where
  lookup path template ht :=
    h.lookup path template (Expr.mem_subtrees_of_child hc ht)
  invoke path template arguments ht :=
    h.invoke path template arguments (Expr.mem_subtrees_of_child hc ht)

/-- A value of each kind. -/
def Value.sample : Kind → Value
  | .boolean => .boolean true
  | .number => .number (.ofInt 1)
  | .string => .string "a"
  | .set => .set [.string "a"]

/-- The context that answers everything with a value of the declared kind. -/
def Context.sampling {σ : Type} : Context σ where
  lookup template := pure (Value.sample (template.kind.getD .boolean))
  invoke template _ := pure (Value.sample (template.returns.getD .boolean))

theorem Context.sampling_answers {σ : Type} (e : Expr) :
    (sampling : Context σ).Answers e where
  lookup path template _ k hk s := by
    refine ⟨Value.sample k, s, ?_, by cases k <;> rfl⟩
    simp only [sampling, hk]
    rfl
  invoke path template arguments _ k hk values _ s := by
    refine ⟨Value.sample k, s, ?_, by cases k <;> rfl⟩
    simp only [sampling, hk]
    rfl

namespace Evaluation

variable {σ α β : Type} {limits : Limits} {ctx : Context σ} {depth : Nat}

/-- An outcome that is good, unless a nested set stands in the way, and only then the
error of a nested set. -/
def EndsWell (nested : Prop) (good : α → Prop) :
    EStateM.Result EvaluationError σ α → Prop
  | .ok a _ => ¬nested ∧ good a
  | .error cause _ => nested ∧ ∃ node member, cause = .nestedSet node member

section EndsWell

variable {nested nested' : Prop} {good : α → Prop} {good' : β → Prop}

theorem EndsWell.bind {x : EStateM EvaluationError σ α}
    {f : α → EStateM EvaluationError σ β} {s : σ}
    (hx : EndsWell nested good (x s))
    (hf : ∀ a s₁, good a → EndsWell nested' good' (f a s₁)) :
    EndsWell (nested ∨ nested') good' ((x >>= f) s) := by
  cases h : x s with
  | error cause s₁ =>
      rw [h] at hx
      rw [run_bind_of_error h]
      exact ⟨Or.inl hx.1, hx.2⟩
  | ok a s₁ =>
      rw [h] at hx
      rw [run_bind_of_ok h]
      have hrest := hf a s₁ hx.2
      cases h' : f a s₁ with
      | error cause s₂ =>
          rw [h'] at hrest
          exact ⟨Or.inr hrest.1, hrest.2⟩
      | ok b s₂ =>
          rw [h'] at hrest
          exact ⟨not_or.mpr ⟨hx.1, hrest.1⟩, hrest.2⟩

theorem EndsWell.congr {r : EStateM.Result EvaluationError σ α}
    (h : EndsWell nested good r) (hn : nested ↔ nested') :
    EndsWell nested' good r := by
  rw [← hn]
  exact h

/-- An outcome that does not fail ends well where no set is nested. -/
theorem EndsWell.of_ok {r : EStateM.Result EvaluationError σ α} {a : α} {s : σ}
    (h : r = .ok a s) (ha : good a) :
    EndsWell False good r := by
  rw [h]
  exact ⟨not_false, ha⟩

theorem EndsWell.visit {good : Value → Prop} {node : Expr}
    {work : EStateM EvaluationError σ Value} {s : σ}
    (hd : depth ≤ limits.maxDepth) (h : EndsWell nested good (work s)) :
    EndsWell nested good (visit limits ctx node depth work s) := by
  rw [visit_of_le hd]
  cases hw : work s with
  | ok v s₁ =>
      rw [hw] at h
      exact h
  | error cause s₁ =>
      rw [hw] at h
      exact h

end EndsWell

/-- A value has the kind that was known of it in advance. -/
def AsKnown (e : Expr) (v : Value) : Prop :=
  e.staticKind = some v.kind

section Lists

theorem evalAll_endsWell {es : List Expr}
    (ih : ∀ e ∈ es, ∀ s, EndsWell e.NestsSet (AsKnown e) (eval limits ctx e depth s))
    (s : σ) :
    EndsWell (∃ e ∈ es, e.NestsSet) (List.Forall₂ AsKnown es)
      (evalAll limits ctx es depth s) := by
  induction es generalizing s with
  | nil => exact ⟨by simp, .nil⟩
  | cons e es hes =>
      have hrest := hes fun e' he' => ih e' (List.mem_cons_of_mem e he')
      have hsteps :
          EndsWell (e.NestsSet ∨ (∃ e' ∈ es, e'.NestsSet) ∨ False)
            (List.Forall₂ AsKnown (e :: es)) (evalAll limits ctx (e :: es) depth s) := by
        rw [evalAll]
        refine EndsWell.bind (ih e List.mem_cons_self s) fun v s₁ hv => ?_
        refine EndsWell.bind (hrest s₁) fun vs s₂ hvs => ?_
        exact EndsWell.of_ok rfl (.cons hv hvs)
      exact hsteps.congr (by simp)

theorem evalArguments_endsWell (node : Expr) {function : String}
    {ps : List Parameter} {es : List Expr}
    (ih : ∀ e ∈ es, ∀ s, EndsWell e.NestsSet (AsKnown e) (eval limits ctx e depth s))
    (hlen : es.length = ps.length)
    (hrule : Expr.checkArguments function ps es = .ok ())
    (s : σ) :
    EndsWell (∃ e ∈ es, e.NestsSet)
      (List.Forall₂ (fun p v => Kind.Agrees p.kind v.kind) ps)
      (evalArguments limits ctx node ps es depth s) := by
  induction es generalizing ps s with
  | nil =>
      cases ps with
      | nil => exact ⟨by simp, .nil⟩
      | cons p ps => simp at hlen
  | cons e es hes =>
      cases ps with
      | nil => simp at hlen
      | cons p ps =>
          obtain ⟨hkind, hrule⟩ := checkArguments_cons_eq_ok_iff.mp hrule
          have hrest := hes (fun e' he' => ih e' (List.mem_cons_of_mem e he'))
            (by simpa using hlen) hrule
          have hsteps :
              EndsWell (e.NestsSet ∨ False ∨ (∃ e' ∈ es, e'.NestsSet) ∨ False)
                (List.Forall₂ (fun p v => Kind.Agrees p.kind v.kind) (p :: ps))
                (evalArguments limits ctx node (p :: ps) (e :: es) depth s) := by
            rw [evalArguments]
            refine EndsWell.bind (ih e List.mem_cons_self s) fun v s₁ hv => ?_
            have hp : Kind.Agrees p.kind v.kind := by
              cases hk : p.kind with
              | none => exact Or.inl rfl
              | some k => exact Or.inr (congrArg some (hkind k v.kind hk hv))
            have hstep :
                EndsWell False (fun _ => True)
                  ((ofExcept (expectArgument node p v) :
                    EStateM EvaluationError σ Unit) s₁) :=
              EndsWell.of_ok (run_ofExcept_eq_ok_iff.mpr
                ⟨expectArgument_eq_ok_iff.mpr hp, rfl⟩) trivial
            refine EndsWell.bind hstep fun _ s₂ _ => ?_
            refine EndsWell.bind (hrest s₂) fun vs s₃ hvs => ?_
            exact EndsWell.of_ok rfl (.cons hp hvs)
          exact hsteps.congr (by simp)

theorem exists_set_iff {members : List Expr} {values : List Value}
    (h : List.Forall₂ AsKnown members values) :
    (∃ m ∈ members, m.staticKind = some .set) ↔ ∃ v ∈ values, v.kind = .set := by
  induction h with
  | nil => simp
  | @cons m v members values hm _ ih =>
      have hhead : m.staticKind = some .set ↔ v.kind = .set := by
        rw [AsKnown] at hm
        simp [hm]
      simp only [List.mem_cons, exists_eq_or_imp, hhead, ih]

/-- The values of members form a set unless one of the members is known to be a set. -/
theorem collect_endsWell {members : List Expr} {values : List Value}
    (h : List.Forall₂ AsKnown members values) (s : σ) :
    EndsWell (Expr.set members).NestsHere (AsKnown (.set members))
      ((ofExcept (collect (.set members) values) : EStateM EvaluationError σ Value) s) := by
  show EndsWell (∃ m ∈ members, m.staticKind = some .set) _ _
  rw [exists_set_iff h]
  cases hc : collect (.set members) values with
  | ok v =>
      have hnone := collect_eq_ok_iff.mp ⟨v, hc⟩
      refine ⟨?_, congrArg some (kind_of_collect hc).symm⟩
      rintro ⟨w, hw, hset⟩
      exact hnone w hw hset
  | error cause =>
      obtain ⟨member, rfl⟩ := collect_eq_error hc
      refine ⟨?_, _, member, rfl⟩
      by_contra hno
      obtain ⟨v, hv⟩ := collect_eq_ok_iff.mpr fun w hw hset => hno ⟨w, hw, hset⟩
      rw [hc] at hv
      cases hv

end Lists

section Nodes

/-- A step after the last question keeps to what the static check has promised. -/
theorem ofExcept_endsWell {good : Value → Prop} {r : Except EvaluationError Value}
    (h : ∃ w, r = .ok w) (hgood : ∀ w, r = .ok w → good w) (s : σ) :
    EndsWell False good ((ofExcept r : EStateM EvaluationError σ Value) s) := by
  obtain ⟨w, hw⟩ := h
  exact EndsWell.of_ok (run_ofExcept_eq_ok_iff.mpr ⟨hw, rfl⟩) (hgood w hw)

/-- An answer of the declared kind passes the check of its kind. -/
theorem answer_endsWell {node : Expr} {k : Kind} {declared : Option Kind}
    {ask : EStateM EvaluationError σ Value}
    (hk : declared = some k)
    (hask : ∀ s, ∃ v s', ask s = .ok v s' ∧ v.kind = k) (s : σ) :
    EndsWell False (fun v => declared = some v.kind)
      ((do
        let v ← ask
        ofExcept (expectKind node declared v)
        pure v : EStateM EvaluationError σ Value) s) := by
  obtain ⟨v, s', hv, hkind⟩ := hask s
  have hdeclared : declared = some v.kind := by rw [hk, hkind]
  have hexpect : expectKind node declared v = .ok () :=
    expectKind_eq_ok_iff.mpr (Or.inr hdeclared)
  rw [run_bind_of_ok hv, run_bind_of_ok (run_ofExcept_eq_ok_iff.mpr ⟨hexpect, rfl⟩)]
  exact EndsWell.of_ok (run_pure v s') hdeclared

/-- A checked tree that is not too high has a value of its static kind, or nests a
set. -/
theorem eval_progress {e : Expr} (h : e.Checked) (answers : ctx.Answers e)
    (within : e.height + depth ≤ limits.maxDepth + 1) (s : σ) :
    EndsWell e.NestsSet (AsKnown e) (eval limits ctx e depth s) := by
  induction e using Expr.child_induction generalizing depth s with
  | node e ih =>
      rw [Expr.height_eq] at within
      have hd : depth ≤ limits.maxDepth := by omega
      have children : ∀ c ∈ e.children, ∀ s,
          EndsWell c.NestsSet (AsKnown c) (eval limits ctx c (depth + 1) s) := by
        intro c hc s
        have hheight :=
          heightAll_le_iff.mp (Nat.le_refl (Expr.heightAll e.children)) c hc
        exact ih c hc (h.child hc) (answers.child hc) (by omega) s
      suffices hparts :
          EndsWell ((∃ c ∈ e.children, c.NestsSet) ∨ e.NestsHere) (AsKnown e)
            (eval limits ctx e depth s) from
        hparts.congr Expr.nestsSet_iff.symm
      cases e with
      | constant c =>
          cases c with
          | string text =>
              refine EndsWell.visit hd ?_
              exact ⟨by simp [Expr.children, Expr.NestsHere], rfl⟩
          | number d =>
              refine EndsWell.visit hd ?_
              exact ⟨by simp [Expr.children, Expr.NestsHere], rfl⟩
          | set members =>
              refine EndsWell.visit hd ?_
              refine EndsWell.bind (evalAll_endsWell children s) fun vs s₁ hvs => ?_
              exact collect_endsWell hvs s₁
      | placeholder p => exact absurd h.bound (by simp [Expr.isBound])
      | «variable» path template =>
          obtain ⟨k, hk⟩ := Option.ne_none_iff_exists'.mp h.declared.self
          have hask := answers.lookup path template (Expr.self_mem_subtrees _) k hk
          refine EndsWell.visit hd ?_
          exact (answer_endsWell hk hask s).congr
            (by simp [Expr.children, Expr.NestsHere])
      | call path template arguments =>
          obtain ⟨k, hk⟩ := Option.ne_none_iff_exists'.mp h.declared.self
          have hask :=
            answers.invoke path template arguments (Expr.self_mem_subtrees _) k hk
          have hargs := evalArguments_endsWell (.call path template arguments)
            children h.complete.self h.node s
          refine EndsWell.visit hd ?_
          refine EndsWell.bind hargs fun values s₁ hvalues => ?_
          exact answer_endsWell hk (hask values hvalues) s₁
      | not operand =>
          have hoperand := children operand (by simp [Expr.children]) s
          suffices hsteps :
              EndsWell (operand.NestsSet ∨ False) (AsKnown (.not operand))
                (eval limits ctx (.not operand) depth s) from
            hsteps.congr (by simp [Expr.children, Expr.NestsHere])
          refine EndsWell.visit hd ?_
          refine EndsWell.bind hoperand fun v s₁ hv => ?_
          have hrule := mapError_eq_ok_iff.mp h.node
          rw [AsKnown] at hv
          rw [hv] at hrule
          exact ofExcept_endsWell (negation_eq_ok_iff.mpr hrule)
            (fun w hw => congrArg some (kind_of_negation hw).symm) s₁
      | binary op left right =>
          have hleft := children left (by simp [Expr.children]) s
          have hright := children right (by simp [Expr.children])
          suffices hsteps :
              EndsWell (left.NestsSet ∨ right.NestsSet ∨ False)
                (AsKnown (.binary op left right))
                (eval limits ctx (.binary op left right) depth s) from
            hsteps.congr (by simp [Expr.children, Expr.NestsHere])
          refine EndsWell.visit hd ?_
          refine EndsWell.bind hleft fun l s₁ hl => ?_
          refine EndsWell.bind (hright s₁) fun r s₂ hr => ?_
          have hrule := mapError_eq_ok_iff.mp h.node
          rw [AsKnown] at hl hr
          rw [hl, hr] at hrule
          exact ofExcept_endsWell (operation_eq_ok_iff.mpr hrule)
            (fun w hw => congrArg some (kind_of_operation hw).symm) s₂

/-- A bound tree with complete calls and declared kinds that passes the static check
and is no higher than the limit has a value of its static kind in every context that
answers it, unless a set literal has a member that is known to be a set; then the
evaluation fails with the error of a nested set. -/
theorem evaluateValue_progress {e : Expr}
    (bound : e.isBound = true)
    (complete : e.CallsComplete)
    (declared : e.Everywhere Expr.KindDeclared)
    (checked : e.check = .ok ())
    (within : e.height ≤ limits.maxDepth)
    (answers : ctx.Answers e) (s : σ) :
    (¬e.NestsSet →
        ∃ v s', evaluateValue limits ctx e s = .ok v s' ∧ e.staticKind = some v.kind) ∧
      (e.NestsSet →
        ∃ node member s',
          evaluateValue limits ctx e s = .error (.nestedSet node member) s') := by
  have hprecheck : checkWithin limits e 1 = .ok () :=
    (checkWithin_eq_ok_iff e 1).mpr ⟨checked, by omega⟩
  have hends := eval_progress ⟨bound, complete, declared, checked⟩ answers
    (show e.height + 1 ≤ limits.maxDepth + 1 by omega) s
  rw [evaluateValue, hprecheck, run_bind_of_ok (run_ofExcept_ok () s)]
  cases h : eval limits ctx e 1 s with
  | ok v s' =>
      rw [h] at hends
      exact ⟨fun _ => ⟨v, s', rfl, hends.2⟩, fun hn => absurd hn hends.1⟩
  | error cause s' =>
      rw [h] at hends
      obtain ⟨hn, node, member, rfl⟩ := hends
      exact ⟨fun hno => absurd hn hno, fun _ => ⟨node, member, s', rfl⟩⟩

theorem evaluateValue_progress_tags :
    let tags : Expr := .variable ⟨["tags"]⟩ ⟨⟨["tags"]⟩, some .set⟩
    let count : FunctionTemplate Expr :=
      ⟨⟨["count"]⟩, [⟨"items", some .set⟩], [], some .number⟩
    let counted : Expr :=
      .binary .lessThan (.call ⟨["count"]⟩ count [tags]) (.number (.ofInt 3))
    let nested : Expr := .not (.binary .isSubset (.set [.string "a", tags]) tags)
    let ctx : Context Unit := .sampling
    ctx.Answers counted ∧ ctx.Answers nested ∧
      counted.check = .ok () ∧ nested.check = .ok () ∧
      (∃ v s', evaluateValue {} ctx counted () = .ok v s' ∧
        counted.staticKind = some v.kind) ∧
      ∃ node member s',
        evaluateValue {} ctx nested () = .error (.nestedSet node member) s' := by
  intro tags count counted nested ctx
  have hcounted : ctx.Answers counted := Context.sampling_answers counted
  have hnested : ctx.Answers nested := Context.sampling_answers nested
  have hvalue := @evaluateValue_progress Unit {} ctx counted
    rfl (by decide) (by decide) rfl (by decide) hcounted ()
  have herror := @evaluateValue_progress Unit {} ctx nested
    rfl (by decide) (by decide) rfl (by decide) hnested ()
  exact ⟨hcounted, hnested, rfl, rfl, hvalue.1 (by decide), herror.2 (by decide)⟩

end Nodes

end Evaluation
end Criteria
