import Criteria.Proofs.Consultation
import Criteria.Proofs.WellFormed

/-!
# Where a value comes from

Sets enter an evaluation in three ways.  The members of a set literal are collected, so
that its value is well formed.  The value of a variable and the result of a call are taken
over from the context as they stand, and nothing looks into a set that the application
hands over.  So a value may break the rules of well-formed sets, but only as the very last
answer that the context gave, to the question at the root of the tree.

**Results.**
* `wellFormed_of_eval`: a tree that asks nothing at its root has a well-formed value.
* `lookup_of_eval`, `invoke_of_eval`: a variable and a call have the value that the context
  answered.
* `wellFormed_evaluateValue_iff`: when the value of a tree is well formed.
* `evaluateValue_repeats_member`: a value with two equal members.
-/

namespace Criteria

open Outcome

/-- The context answers with well-formed values only. -/
structure Context.GivesWellFormed {σ : Type} (ctx : Context σ) : Prop where
  lookup : ∀ template s v s', ctx.lookup template s = .ok v s' → v.WellFormed
  invoke : ∀ template values s v s', ctx.invoke template values s = .ok v s' →
    v.WellFormed

namespace Evaluation

variable {σ : Type} {limits : Limits} {ctx : Context σ} {depth : Nat} {v : Value}
  {s s' : σ}

section Values

theorem wellFormed_of_boolean (h : v.kind = .boolean) : v.WellFormed := by
  obtain ⟨b, rfl⟩ := kind_eq_boolean_iff.mp h
  trivial

/-- A tree that asks nothing at its root has a well-formed value, whatever the context
answers below. -/
theorem wellFormed_of_eval {e : Expr} (hroot : e.symbol? = none)
    (h : eval limits ctx e depth s = .ok v s') : v.WellFormed := by
  match e with
  | .constant (.string text) =>
      obtain ⟨-, s₁, hw, -⟩ := visit_eq_ok_iff.mp h
      cases hw
      trivial
  | .constant (.number d) =>
      obtain ⟨-, s₁, hw, -⟩ := visit_eq_ok_iff.mp h
      cases hw
      trivial
  | .constant (.set members) =>
      obtain ⟨-, s₁, hw, -⟩ := visit_eq_ok_iff.mp h
      obtain ⟨values, s₂, -, hw⟩ := run_bind_eq_ok_iff.mp hw
      obtain ⟨hv, -⟩ := run_ofExcept_eq_ok_iff.mp hw
      exact Value.wellFormed_ofMembers (mapError_eq_ok_iff.mp hv)
  | .placeholder p =>
      obtain ⟨-, s₁, hw, -⟩ := visit_eq_ok_iff.mp h
      cases hw
  | .not operand =>
      obtain ⟨-, s₁, hw, -⟩ := visit_eq_ok_iff.mp h
      obtain ⟨w, s₂, -, hw⟩ := run_bind_eq_ok_iff.mp hw
      obtain ⟨hv, -⟩ := run_ofExcept_eq_ok_iff.mp hw
      exact wellFormed_of_boolean (kind_of_negation hv)
  | .binary op left right =>
      obtain ⟨-, s₁, hw, -⟩ := visit_eq_ok_iff.mp h
      obtain ⟨l, s₂, -, hw⟩ := run_bind_eq_ok_iff.mp hw
      obtain ⟨r, s₃, -, hw⟩ := run_bind_eq_ok_iff.mp hw
      obtain ⟨hv, -⟩ := run_ofExcept_eq_ok_iff.mp hw
      exact wellFormed_of_boolean (kind_of_operation hv)
  | .variable path template => cases hroot
  | .call path template arguments => cases hroot

/-- The value of a variable is the answer to it, which is asked for in the first state. -/
theorem lookup_of_eval {path : Path} {template : VariableTemplate}
    (h : eval limits ctx (.variable path template) depth s = .ok v s') :
    ∃ s₁, ctx.lookup template s = .ok v s₁ ∧
      s' = ctx.observe (.variable path template) v s₁ := by
  obtain ⟨-, s₁, hw, hs'⟩ := visit_eq_ok_iff.mp h
  obtain ⟨w, s₂, hlookup, hw⟩ := run_bind_eq_ok_iff.mp hw
  obtain ⟨⟨⟩, s₃, hkind, hw⟩ := run_bind_eq_ok_iff.mp hw
  cases hw
  obtain ⟨-, rfl⟩ := run_ofExcept_eq_ok_iff.mp hkind
  exact ⟨_, hlookup, hs'⟩

/-- The value of a call is the answer to it, which is asked for after the arguments. -/
theorem invoke_of_eval {path : Path} {template : FunctionTemplate Expr}
    {arguments : List Expr}
    (h : eval limits ctx (.call path template arguments) depth s = .ok v s') :
    ∃ values s₁ s₂, ctx.invoke template values s₁ = .ok v s₂ ∧
      s' = ctx.observe (.call path template arguments) v s₂ := by
  obtain ⟨-, s₁, hw, hs'⟩ := visit_eq_ok_iff.mp h
  obtain ⟨values, s₂, -, hw⟩ := run_bind_eq_ok_iff.mp hw
  obtain ⟨w, s₃, hinvoke, hw⟩ := run_bind_eq_ok_iff.mp hw
  obtain ⟨⟨⟩, s₄, hkind, hw⟩ := run_bind_eq_ok_iff.mp hw
  cases hw
  obtain ⟨-, rfl⟩ := run_ofExcept_eq_ok_iff.mp hkind
  exact ⟨values, s₂, _, hinvoke, hs'⟩

theorem eval_of_evaluateValue {e : Expr} (h : evaluateValue limits ctx e s = .ok v s') :
    eval limits ctx e 1 s = .ok v s' := by
  obtain ⟨⟨⟩, s₁, hcheck, h⟩ := run_bind_eq_ok_iff.mp h
  obtain ⟨-, hs₁⟩ := run_ofExcept_eq_ok_iff.mp hcheck
  rw [hs₁] at h
  exact h

/-- Where the context answers with well-formed values, every tree has a well-formed
value. -/
theorem wellFormed_of_evaluateValue (hctx : ctx.GivesWellFormed) {e : Expr}
    (h : evaluateValue limits ctx e s = .ok v s') : v.WellFormed := by
  have heval := eval_of_evaluateValue h
  match e with
  | .variable path template =>
      obtain ⟨s₁, hlookup, -⟩ := lookup_of_eval heval
      exact hctx.lookup template s v s₁ hlookup
  | .call path template arguments =>
      obtain ⟨values, s₁, s₂, hinvoke, -⟩ := invoke_of_eval heval
      exact hctx.invoke template values s₁ v s₂ hinvoke
  | .constant _ => exact wellFormed_of_eval rfl heval
  | .placeholder _ => exact wellFormed_of_eval rfl heval
  | .not _ => exact wellFormed_of_eval rfl heval
  | .binary _ _ _ => exact wellFormed_of_eval rfl heval

end Values

section Answers

/-- An answer that is written down ends the record. -/
theorem noting_eq_ok {question : Query} {ask : EStateM EvaluationError σ Value}
    {p p' : σ × List Exchange} (h : noting (Exchange.mk question) ask p = .ok v p') :
    p'.2 = p.2 ++ [⟨question, .ok v⟩] := by
  simp only [noting] at h
  cases hask : ask p.1 with
  | ok w s₁ =>
      rw [hask] at h
      cases h
      rfl
  | error cause s₁ =>
      rw [hask] at h
      cases h

/-- The value of a variable or a call is the last answer of the context, and this answer
is about the symbol of the variable or the call. -/
theorem last_answer_of_evaluateValue {e : Expr} {symbol : Symbol}
    (hroot : e.symbol? = some symbol) (h : evaluateValue limits ctx e s = .ok v s') :
    ∃ asked question, question.symbol = symbol ∧
      transcript limits ctx e s = asked ++ [⟨question, .ok v⟩] := by
  -- The recorded run has the same value, and its record ends with the answer at the root.
  rw [← (asks_evaluateValue e).withoutLog_eq s [], withoutLog_eq_ok_iff] at h
  obtain ⟨log, h⟩ := h
  have hlog : transcript limits ctx e s = log := by
    rw [transcript, h]
    rfl
  rw [hlog]
  have heval := eval_of_evaluateValue h
  cases e with
  | «variable» path template =>
      cases hroot
      obtain ⟨p₁, hlookup, hs'⟩ := lookup_of_eval heval
      have hrecord := noting_eq_ok hlookup
      have hend : log = p₁.2 := congrArg Prod.snd hs'
      exact ⟨[], .variable template, rfl, by rw [hend, hrecord]⟩
  | call path template arguments =>
      cases hroot
      obtain ⟨values, p₁, p₂, hinvoke, hs'⟩ := invoke_of_eval heval
      have hrecord := noting_eq_ok hinvoke
      have hend : log = p₂.2 := congrArg Prod.snd hs'
      exact ⟨p₁.2, .call template values, rfl, by rw [hend, hrecord]⟩
  | constant c => cases hroot
  | placeholder p => cases hroot
  | not operand => cases hroot
  | binary op left right => cases hroot

/-- The value of a tree is well formed exactly when the answer that it was taken over from
is well formed.  It was taken over if the last question of the evaluation is the one at the
root of the tree; any other value is well formed in every context. -/
theorem wellFormed_evaluateValue_iff {e : Expr}
    (h : evaluateValue limits ctx e s = .ok v s') :
    v.WellFormed ↔
      ∀ asked question w, transcript limits ctx e s = asked ++ [⟨question, .ok w⟩] →
        e.symbol? = some question.symbol → w.WellFormed := by
  cases hroot : e.symbol? with
  | none =>
      have hv := wellFormed_of_eval hroot (eval_of_evaluateValue h)
      simp [hv]
  | some symbol =>
      obtain ⟨asked, question, hsymbol, hlast⟩ := last_answer_of_evaluateValue hroot h
      constructor
      · intro hv asked' question' w hlast' _
        have hends : [⟨question, .ok v⟩] = [(⟨question', .ok w⟩ : Exchange)] :=
          List.append_inj_right' (hlast.symm.trans hlast') rfl
        cases hends
        exact hv
      · intro hanswers
        exact hanswers asked question v hlast (congrArg some hsymbol.symm)

/-- A call that hands its argument back, a set with two equal members, and the set literal
that collects the members of the same list. -/
theorem wellFormed_evaluateValue_iff_handedBack :
    let tags : VariableTemplate := ⟨⟨["tags"]⟩, some .set⟩
    let same : FunctionTemplate Expr := ⟨⟨["same"]⟩, [⟨"value", none⟩], [], none⟩
    let e : Expr := .call ⟨["same"]⟩ same [.variable ⟨["tags"]⟩ tags]
    let repeated : Value := .set [.number ⟨1, 0⟩, .number ⟨10, 1⟩]
    let ctx : Context Nat :=
      ⟨fun _ n => .ok repeated (n + 1), fun _ values n => .ok (values.headD repeated) (n + 1),
        fun _ _ n => n⟩
    evaluateValue {} ctx e 0 = .ok repeated 2 ∧
      (repeated.WellFormed ↔
        ∀ asked question w, transcript {} ctx e 0 = asked ++ [⟨question, .ok w⟩] →
          e.symbol? = some question.symbol → w.WellFormed) ∧
      transcript {} ctx e 0 =
        [⟨.variable tags, .ok repeated⟩] ++ [⟨.call same [repeated], .ok repeated⟩] := by
  intro tags same e repeated ctx
  have h : evaluateValue {} ctx e 0 = .ok repeated 2 := rfl
  exact ⟨h, wellFormed_evaluateValue_iff h, rfl⟩

/-- An assignment may give a variable a set with a repeated member, and the value of the
variable repeats it. -/
theorem evaluateValue_repeats_member :
    let a := Assignment.empty.setVariable "tags" (.set [.number ⟨1, 0⟩, .number ⟨1, 0⟩])
    let e : Expr := .variable ⟨["tags"]⟩ ⟨⟨["tags"]⟩, none⟩
    ∃ v, evaluateValue {} (a.context : Context Unit) e () = .ok v () ∧ ¬v.WellFormed := by
  intro a e
  refine ⟨.set [.number ⟨1, 0⟩, .number ⟨1, 0⟩], rfl, ?_⟩
  rintro ⟨hapart, -⟩
  have hdifferent := List.rel_of_pairwise_cons hapart List.mem_cons_self
  rw [Value.beq_refl_of_not_set rfl] at hdifferent
  cases hdifferent

end Answers

end Evaluation
end Criteria
