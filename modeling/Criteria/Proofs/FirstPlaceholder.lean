import Criteria.Conversion.Dump
import Criteria.Proofs.Ledger
import Criteria.Proofs.Traversal

/-!
# The first placeholder

Whether a tree is bound is asked in four ways: one may test it, list its placeholders, convert
it or evaluate it.  The listing goes from the root down and looks into the arguments of a
placeholder; a conversion and an evaluation go from the leaves up and stop where they come to a
placeholder.  For all that they agree.  There is a placeholder in the list exactly when the
others find one, and the one that they find is the first of the list.

An evaluation may end before it gets so far, and so may a conversion by a converter that can
fail.  A document is made by one that cannot.

**Results.**
* `stops_bind`: two runs in turn stop at the first placeholder of the first one, or else at
  that of the second.
* `stops_convert`: a converter whose cases never fail stops at the first placeholder only.
* `dump_eq_error_of_placeholders`, `exists_dump_iff`: so does the making of a document.
* `unboundness_agrees`: all traversals agree on the first placeholder.
-/

namespace Criteria

open Outcome

namespace Conversion

open Criteria.Expr

variable {σ α β : Type}

/-- How a conversion ends in which no case fails: with a result when there is no placeholder,
and else with an error about the first one. -/
inductive Stopped (first : Option (Placeholder Expr)) :
    EStateM.Result ConversionError σ α → Prop
  | finished {a : α} {s : σ} (bound : first = none) : Stopped first (.ok a s)
  | unbound {p : Placeholder Expr} {s : σ} (reached : first = some p) :
      Stopped first (.error (.unbound p.render) s)

/-- A run stops at this placeholder, or at none, whatever the state. -/
def Stops (first : Option (Placeholder Expr)) (x : EStateM ConversionError σ α) : Prop :=
  ∀ s, Stopped first (x s)

section Laws

variable {first second : Option (Placeholder Expr)}

theorem stops_pure (a : α) : Stops none (pure a : EStateM ConversionError σ α) :=
  fun _ => .finished rfl

theorem stops_bind {x : EStateM ConversionError σ α} {f : α → EStateM ConversionError σ β}
    (hx : Stops first x) (hf : ∀ a, Stops second (f a)) :
    Stops (first.or second) (x >>= f) := by
  intro s
  have hfirst := hx s
  generalize hr : x s = r at hfirst
  cases hfirst with
  | @finished a s₁ bound =>
      rw [run_bind_of_ok hr, bound, Option.none_or]
      exact hf a s₁
  | unbound reached =>
      rw [run_bind_of_error hr]
      exact .unbound (by rw [reached, Option.some_or])

/-- What follows a run and stops at no placeholder changes nothing. -/
theorem stops_bind_none {x : EStateM ConversionError σ α}
    {f : α → EStateM ConversionError σ β} (hx : Stops first x) (hf : ∀ a, Stops none (f a)) :
    Stops first (x >>= f) := by
  rw [← Option.or_none (o := first)]
  exact stops_bind hx hf

/-- Telling the converter of a node stops at nothing. -/
theorem stops_enter {x : EStateM ConversionError σ α} (f : σ → σ) (h : Stops first x) :
    Stops first (do modify f; x) :=
  fun s => h (f s)

end Laws

/-- A converter none of whose cases ever fails. -/
def Total (c : Converter σ β) : Prop :=
  ∀ callback s, ∃ b s', c.apply callback s = .ok b s'

theorem total_dumper : Total (dumper : Converter σ Json) := by
  intro callback s
  cases callback <;> exact ⟨_, s, rfl⟩

section Trees

variable {c : Converter σ β}

theorem Total.stops (total : Total c) (callback : Callback β) :
    Stops none (c.apply callback) := by
  intro s
  rcases total callback s with ⟨b, s', h⟩
  rw [h]
  exact .finished rfl

theorem stops_convertAll {es : List Expr}
    (ih : ∀ e ∈ es, Stops e.placeholders.head? (convert c e)) :
    Stops (placeholdersAll es).head? (convertAll c es) := by
  induction es with
  | nil => exact stops_pure []
  | cons e es hes =>
      rw [placeholdersAll, List.head?_append, convertAll]
      refine stops_bind (ih e List.mem_cons_self) fun b => ?_
      refine stops_bind_none ?_ fun bs => stops_pure (b :: bs)
      exact hes fun e' he' => ih e' (List.mem_cons_of_mem e he')

/-- A converter whose cases never fail stops at the first placeholder of a tree, and at nothing
else. -/
theorem stops_convert (total : Total c) (e : Expr) :
    Stops e.placeholders.head? (convert c e) := by
  induction e using child_induction with
  | node e children =>
      match e with
      | .constant (.string s) => exact stops_enter _ (total.stops (.string s))
      | .constant (.number d) => exact stops_enter _ (total.stops (.number d))
      | .constant (.set members) =>
          refine stops_enter _ (stops_bind_none (stops_convertAll children) fun bs => ?_)
          exact total.stops (.set bs)
      | .placeholder p =>
          rw [placeholders_placeholder, List.head?_cons]
          exact stops_enter _ fun s => .unbound rfl
      | .variable path template => exact stops_enter _ (total.stops (.reference path template))
      | .call path template arguments =>
          refine stops_enter _ (stops_bind_none (stops_convertAll children) fun bs => ?_)
          exact total.stops (.call path template bs)
      | .not operand =>
          have hoperand := children operand (by simp [Expr.children])
          refine stops_enter _ (stops_bind_none hoperand fun b => ?_)
          exact total.stops (.negation b)
      | .binary op left right =>
          rw [placeholders, List.head?_append]
          have hleft := children left (by simp [Expr.children])
          have hright := children right (by simp [Expr.children])
          refine stops_enter _ (stops_bind hleft fun a => stops_bind_none hright fun b => ?_)
          rw [Converter.operation_eq_apply]
          exact total.stops (.operation op a b)

end Trees

end Conversion

namespace Expr

variable {e : Expr} {p : Placeholder Expr} {more : List (Placeholder Expr)}

/-- The document of a tree is made unless there is a placeholder in it; then the first one is
blamed. -/
theorem dump_eq (e : Expr) :
    (e.placeholders = [] ∧ ∃ j, e.dump = .ok j) ∨
      ∃ p more, e.placeholders = p :: more ∧ e.dump = .error (.unbound p.render) := by
  have hstop := Conversion.stops_convert (Conversion.total_dumper (σ := Unit)) e ()
  rw [dump]
  generalize e.convert dumper () = r at hstop ⊢
  cases hstop with
  | @finished j s bound => exact .inl ⟨List.head?_eq_none_iff.mp bound, j, rfl⟩
  | @unbound p s reached =>
      rcases List.head?_eq_some_iff.mp reached with ⟨more, hmore⟩
      exact .inr ⟨p, more, hmore, rfl⟩

theorem exists_dump_iff (e : Expr) : (∃ j, e.dump = .ok j) ↔ e.placeholders = [] := by
  rcases dump_eq e with ⟨hnone, hdump⟩ | ⟨p, more, hsome, hdump⟩
  · exact ⟨fun _ => hnone, fun _ => hdump⟩
  · rw [hsome, hdump]
    simp

theorem dump_eq_error_of_placeholders (h : e.placeholders = p :: more) :
    e.dump = .error (.unbound p.render) := by
  rcases dump_eq e with ⟨hnone, -⟩ | ⟨q, rest, hsome, hdump⟩
  · cases h.symm.trans hnone
  · cases h.symm.trans hsome
    exact hdump

end Expr

open Evaluation in
/-- A tree whose calls are complete is bound when it has no placeholder, and this is when a
document is made of it.  If it has one, the document is refused because of the first, and the
tree has no value in any context within any limits.  After the first check has been passed, the
ledger tells the steps of the evaluation: when all of them are passed, the evaluation is refused
because of that same placeholder; when one is not, it is the last, and its failure is the
error. -/
theorem unboundness_agrees {e : Expr} (complete : e.CallsComplete) :
    (e.isBound = true ↔ e.placeholders = []) ∧
    (e.isBound = true ↔ ∃ j, e.dump = .ok j) ∧
    ∀ p more, e.placeholders = p :: more →
      e.dump = .error (.unbound p.render) ∧
      ∀ {σ : Type} (limits : Limits) (ctx : Context σ) (s : σ),
        (∃ cause s', evaluateValue limits ctx e s = .error cause s') ∧
        (checkWithin limits e 1 = .ok () →
          withoutLog (account limits ctx e 1 (s, [])) = evaluateValue limits ctx e s ∧
          (Passed (ledger limits ctx e s) →
            ∃ s', evaluateValue limits ctx e s = .error (.unbound p.render) s') ∧
          (¬ Passed (ledger limits ctx e s) →
            ∃ before step cause s', ledger limits ctx e s = before ++ [⟨step, some cause⟩] ∧
              Passed before ∧ evaluateValue limits ctx e s = .error cause s')) := by
  refine ⟨e.isBound_iff, ?_, ?_⟩
  · rw [e.isBound_iff, e.exists_dump_iff]
  intro p more hplaceholders
  have hfirst : e.placeholders.head? = some p := by rw [hplaceholders, List.head?_cons]
  refine ⟨Expr.dump_eq_error_of_placeholders hplaceholders, ?_⟩
  intro σ limits ctx s
  refine ⟨?_, ?_⟩
  · cases hcheck : checkWithin limits e 1 with
    | error cause =>
        exact ⟨cause, s, evaluateValue_of_checkWithin_error limits ctx hcheck s⟩
    | ok =>
        have hends := (accounts_evaluateValue limits ctx complete hcheck).finalLog s
        cases hrun : evaluateValue limits ctx e s with
        | error cause s' => exact ⟨cause, s', rfl⟩
        | ok v s' =>
            rw [hrun] at hends
            cases hfirst.symm.trans hends.none_of_ok
  · intro hcheck
    have haccounts := accounts_evaluateValue limits ctx complete hcheck
    have hends := haccounts.finalLog s
    refine ⟨haccounts.withoutLog_eq s [], ?_, ?_⟩
    · intro passed
      exact answer_eq_error_iff.mp (hends.unbound_of_passed passed hfirst)
    · intro hfailed
      obtain ⟨before, step, cause, hledger, hpassed, hcause⟩ :=
        hends.failed_of_not_passed hfailed
      obtain ⟨s', hs'⟩ := answer_eq_error_iff.mp hcause
      exact ⟨before, step, cause, s', hledger, hpassed, hs'⟩

open Evaluation in
/-- Two placeholders, the one an argument of the other, after a call and a variable.  When the
context answers with truth values, the evaluation comes to the outer one, and so does the making
of a document; when the call is refused, it ends there. -/
theorem unboundness_agrees_limit :
    let opened : VariableTemplate := ⟨⟨["open"]⟩, some .boolean⟩
    let near : FunctionTemplate Expr :=
      ⟨⟨["near"]⟩, [⟨"area", some .number⟩], [], some .boolean⟩
    let inner : Placeholder Expr := ⟨[], ⟨["area"]⟩, none⟩
    let outer : Placeholder Expr := ⟨[], ⟨["limit"]⟩, some [.placeholder inner]⟩
    let e : Expr := .binary .and (.call ⟨["near"]⟩ near [.number ⟨1, 0⟩])
      (.binary .or (.variable ⟨["open"]⟩ opened) (.not (.placeholder outer)))
    let ctx : Context Nat :=
      ⟨fun _ n => .ok (.boolean true) (n + 1), fun _ _ n => .ok (.boolean true) (n + 1),
        fun _ _ n => n⟩
    let refusing : Context Nat :=
      ⟨fun _ n => .ok (.boolean true) n, fun _ _ n => .error (.undefinedFunction "near") n,
        fun _ _ n => n⟩
    e.CallsComplete ∧ e.placeholders = [outer, inner] ∧ e.isBound = false ∧
      e.dump = .error (.unbound outer.render) ∧ checkWithin {} e 1 = .ok () ∧
      (ledger {} ctx e 0).length = 5 ∧ Passed (ledger {} ctx e 0) ∧
      (∃ s', evaluateValue {} ctx e 0 = .error (.unbound outer.render) s') ∧
      ¬ Passed (ledger {} refusing e 0) ∧
      ∃ before step cause s', ledger {} refusing e 0 = before ++ [⟨step, some cause⟩] ∧
        evaluateValue {} refusing e 0 = .error cause s' := by
  intro opened near inner outer e ctx refusing
  have complete : e.CallsComplete := by decide
  have hplaceholders : e.placeholders = [outer, inner] := rfl
  have hcheck : checkWithin {} e 1 = .ok () := rfl
  have passed : Passed (ledger {} ctx e 0) := by decide
  have refused : ¬ Passed (ledger {} refusing e 0) := by decide
  obtain ⟨hbound, -, hfirst⟩ := unboundness_agrees complete
  obtain ⟨hdump, hevaluate⟩ := hfirst outer [inner] hplaceholders
  obtain ⟨before, step, cause, s', hledger, -, hrun⟩ :=
    ((hevaluate {} refusing 0).2 hcheck).2.2 refused
  refine ⟨complete, hplaceholders, ?_, hdump, hcheck, rfl, passed,
    ((hevaluate {} ctx 0).2 hcheck).2.1 passed, refused, before, step, cause, s', hledger, hrun⟩
  rw [← Bool.not_eq_true, hbound, hplaceholders]
  exact List.cons_ne_nil outer [inner]

end Criteria
