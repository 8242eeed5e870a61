import Criteria.Proofs.Consultation
import Criteria.Proofs.Depth

/-!
# The ledger of an evaluation

An evaluation that has passed its first check goes on in steps.  It asks the context about a
variable or a call, looks at the kind of an answer, of an argument or of an operand, and makes
sure that no member of a set is itself a set.  Each step may fail, and with it the evaluation
fails; there is only one other way to fail, which is to come to a placeholder.

The ledger of an evaluation lists its steps in order, each with its failure if it failed.
Keeping it changes nothing.  Whether a tree is bound can be read from how its evaluation ends:
it has a value only if there is no placeholder in it, and when every step has passed and yet
there is no value, the evaluation has come to the first placeholder and to no other.

**Results.**
* `Reaches.append`: two steps in turn come to the first placeholder of the first one, or else to
  that of the second.
* `accounts_account`: a tree is evaluated up to its first placeholder.
* `Reaches.unbound_of_passed`, `Reaches.failed_of_not_passed`: how an evaluation without a value
  ends, as told from its ledger.
-/

namespace Criteria
namespace Evaluation

open Outcome

/-- A step of an evaluation, with what it is about. -/
inductive Step where
  /-- A question to the context. -/
  | query (question : Query)
  /-- The kind of an answer, beside the declared kind. -/
  | answer (node : Expr) (declared : Option Kind) (v : Value)
  /-- The kind of an argument, beside the kind that its parameter declares. -/
  | argument (node : Expr) (p : Parameter) (v : Value)
  /-- The values of members, none of which may be a set. -/
  | members (node : Expr) (values : List Value)
  /-- The kind of the operand of a negation. -/
  | operand (node : Expr) (v : Value)
  /-- The kinds of both operands of an operator. -/
  | operands (node : Expr) (op : BinaryOp) (left right : Value)

/-- A step and how it failed, if it did. -/
structure StepRun where
  step : Step
  failure : Option EvaluationError

/-- A step that was taken and ended in this way. -/
def StepRun.ended {α : Type} (step : Step) : Except EvaluationError α → StepRun
  | .ok _ => ⟨step, none⟩
  | .error cause => ⟨step, some cause⟩

/-- All of these steps have passed. -/
def Passed (steps : List StepRun) : Prop :=
  ∀ x ∈ steps, x.failure = none

instance (steps : List StepRun) : Decidable (Passed steps) :=
  inferInstanceAs (Decidable (∀ x ∈ steps, x.failure = none))

theorem Passed.append {steps more : List StepRun} (h : Passed steps) (h' : Passed more) :
    Passed (steps ++ more) :=
  List.forall_mem_append.mpr ⟨h, h'⟩

variable {σ α β : Type}

/-- A check with its entry in a ledger. -/
def tested (step : Step) (x : Except EvaluationError α) :
    EStateM EvaluationError (σ × List StepRun) α :=
  noting (.ended step) (ofExcept x)

/-- The context that answers in the same way and enters its questions in a ledger. -/
def stepped (ctx : Context σ) : Context (σ × List StepRun) :=
  ctx.logged fun question => .ended (.query question)

section Account

variable (limits : Limits) (ctx : Context σ)

mutual

/-- The evaluation of a tree with its ledger. -/
def account : Expr → Nat → EStateM EvaluationError (σ × List StepRun) Value
  | .constant (.string s), depth =>
      visit limits (stepped ctx) (.constant (.string s)) depth (pure (.string s))
  | .constant (.number d), depth =>
      visit limits (stepped ctx) (.constant (.number d)) depth (pure (.number d))
  | .constant (.set members), depth =>
      visit limits (stepped ctx) (.constant (.set members)) depth do
        let values ← accountAll members (depth + 1)
        tested (.members (.constant (.set members)) values)
          (collect (.constant (.set members)) values)
  | .placeholder p, depth =>
      visit limits (stepped ctx) (.placeholder p) depth (throw (.unbound p.render))
  | .variable path template, depth =>
      visit limits (stepped ctx) (.variable path template) depth do
        let v ← (stepped ctx).lookup template
        tested (.answer (.variable path template) template.kind v)
          (expectKind (.variable path template) template.kind v)
        pure v
  | .call path template arguments, depth =>
      visit limits (stepped ctx) (.call path template arguments) depth do
        let values ← accountArguments (.call path template arguments)
          template.parameters arguments (depth + 1)
        let v ← (stepped ctx).invoke template values
        tested (.answer (.call path template arguments) template.returns v)
          (expectKind (.call path template arguments) template.returns v)
        pure v
  | .not operand, depth =>
      visit limits (stepped ctx) (.not operand) depth do
        let v ← account operand (depth + 1)
        tested (.operand (.not operand) v) (negation (.not operand) v)
  | .binary op left right, depth =>
      visit limits (stepped ctx) (.binary op left right) depth do
        let a ← account left (depth + 1)
        let b ← account right (depth + 1)
        tested (.operands (.binary op left right) op a b)
          (operation (.binary op left right) op a b)
termination_by structural e => e

/-- The evaluation of trees from left to right with its ledger. -/
def accountAll : List Expr → Nat → EStateM EvaluationError (σ × List StepRun) (List Value)
  | [], _ => pure []
  | e :: es, depth => do
      let v ← account e depth
      let vs ← accountAll es depth
      pure (v :: vs)
termination_by structural es => es

/-- The evaluation of the arguments of a call with its ledger. -/
def accountArguments (node : Expr) :
    List Parameter → List Expr → Nat →
      EStateM EvaluationError (σ × List StepRun) (List Value)
  | p :: ps, e :: es, depth => do
      let v ← account e depth
      tested (.argument node p v) (expectArgument node p v)
      let vs ← accountArguments node ps es depth
      pure (v :: vs)
  | _, _, _ => pure []
termination_by structural _ es => es

end

/-- The steps of an evaluation, in order, from where the first check has been passed. -/
def ledger (e : Expr) (s : σ) : List StepRun :=
  (finalState (account limits ctx e 1 (s, []))).2

end Account

/-- How a run ends that takes these steps.  There is a result only where there is no
placeholder; else either the first placeholder has been reached and all steps have passed, or
the last step has failed. -/
inductive Reaches (first : Option (Placeholder Expr)) : Protocol EvaluationError StepRun α
  | finished {a : α} {steps : List StepRun} (bound : first = none) (passed : Passed steps) :
      Reaches first steps (.ok a)
  | unbound {p : Placeholder Expr} {steps : List StepRun} (reached : first = some p)
      (passed : Passed steps) : Reaches first steps (.error (.unbound p.render))
  | failed {cause : EvaluationError} {steps : List StepRun} {step : Step}
      (passed : Passed steps) :
      Reaches first (steps ++ [⟨step, some cause⟩]) (.error cause)

/-- A run comes to this placeholder first, or to none, as far as its steps pass: the second
run is the first one with its ledger. -/
def Accounts (first : Option (Placeholder Expr)) (x : EStateM EvaluationError σ α)
    (x' : EStateM EvaluationError (σ × List StepRun) α) : Prop :=
  Logs (Reaches first) x x'

section Protocols

variable {first second : Option (Placeholder Expr)} {steps : List StepRun}

theorem passed_nil : Passed [] :=
  List.forall_mem_nil _

theorem reaches_ok (a : α) : Reaches none [] (.ok a) :=
  .finished rfl passed_nil

theorem reaches_ended (step : Step) (r : Except EvaluationError α) :
    Reaches none [.ended step r] r := by
  cases r with
  | ok a => exact .finished rfl (by simp [Passed, StepRun.ended])
  | error cause => exact .failed passed_nil

/-- Two runs in turn come to the first placeholder of the first one, or else to that of the
second. -/
theorem Reaches.append {r : Except EvaluationError β}
    (h : Then (Reaches first (α := α)) (fun _ => Reaches second) steps r) :
    Reaches (first.or second) steps r := by
  cases h with
  | stopped h =>
      cases h with
      | unbound reached passed => exact .unbound (by rw [reached, Option.some_or]) passed
      | failed passed => exact .failed passed
  | passed h h' =>
      cases h with
      | finished bound passed =>
          rw [bound, Option.none_or]
          cases h' with
          | finished bound' passed' => exact .finished bound' (passed.append passed')
          | unbound reached' passed' => exact .unbound reached' (passed.append passed')
          | failed passed' =>
              rw [← List.append_assoc]
              exact .failed (passed.append passed')

/-- What follows a run and comes to no placeholder changes nothing. -/
theorem Reaches.append_none {r : Except EvaluationError β}
    {Q : α → Protocol EvaluationError StepRun β} (h : Then (Reaches first) Q steps r)
    (hQ : ∀ a steps r, Q a steps r → Reaches none steps r) : Reaches first steps r := by
  rw [← Option.or_none (o := first)]
  exact .append (h.imp (fun _ _ h => h) hQ)

theorem reaches_of_each {es : List Expr} {r : Except EvaluationError (List α)}
    (h : Each (fun e => Reaches e.placeholders.head?) es steps r) :
    Reaches (Expr.placeholdersAll es).head? steps r := by
  refine Each.imp (fun es => Reaches (Expr.placeholdersAll es).head?) (reaches_ok [])
    (fun e es steps r h => ?_) h
  rw [Expr.placeholdersAll, List.head?_append]
  refine .append (h.imp (fun _ _ h => h) fun a _ _ h => .append_none h ?_)
  rintro as _ _ ⟨rfl, rfl⟩
  exact reaches_ok (a :: as)

end Protocols

section Trees

variable {limits : Limits} {ctx : Context σ} {depth : Nat}
  {first second : Option (Placeholder Expr)}

theorem accounts_pure (a : α) :
    Accounts none (pure a : EStateM EvaluationError σ α) (pure a) := by
  refine (logs_pure a).mono ?_
  rintro _ _ ⟨rfl, rfl⟩
  exact reaches_ok a

theorem accounts_unbound (p : Placeholder Expr) :
    Accounts (some p) (throw (.unbound p.render) : EStateM EvaluationError σ α)
      (throw (.unbound p.render)) := by
  refine (logs_throw _).mono ?_
  rintro _ _ ⟨rfl, rfl⟩
  exact .unbound rfl passed_nil

theorem accounts_noting (step : Step) (x : EStateM EvaluationError σ α) :
    Accounts none x (noting (.ended step) x) := by
  refine (logs_noting _ x).mono ?_
  rintro _ r rfl
  exact reaches_ended step r

theorem accounts_tested (step : Step) (x : Except EvaluationError α) :
    Accounts none (ofExcept x : EStateM EvaluationError σ α) (tested step x) :=
  accounts_noting step (ofExcept x)

theorem accounts_bind {x : EStateM EvaluationError σ α} {f : α → EStateM EvaluationError σ β}
    {x' : EStateM EvaluationError (σ × List StepRun) α}
    {f' : α → EStateM EvaluationError (σ × List StepRun) β}
    (hx : Accounts first x x') (hf : ∀ a, Accounts second (f a) (f' a)) :
    Accounts (first.or second) (x >>= f) (x' >>= f') :=
  (logs_bind hx hf).mono fun _ _ => .append

theorem accounts_bind_none {x : EStateM EvaluationError σ α}
    {f : α → EStateM EvaluationError σ β} {x' : EStateM EvaluationError (σ × List StepRun) α}
    {f' : α → EStateM EvaluationError (σ × List StepRun) β}
    (hx : Accounts first x x') (hf : ∀ a, Accounts none (f a) (f' a)) :
    Accounts first (x >>= f) (x' >>= f') :=
  (logs_bind hx hf).mono fun _ _ h => .append_none h fun _ _ _ h => h

/-- Within the limit, entering a node and reporting its value are no steps. -/
theorem accounts_visit {node : Expr} {work : EStateM EvaluationError σ Value}
    {work' : EStateM EvaluationError (σ × List StepRun) Value}
    (hdepth : depth ≤ limits.maxDepth) (h : Accounts first work work') :
    Accounts first (visit limits ctx node depth work)
      (visit limits (stepped ctx) node depth work') :=
  logs_visit h fun hdeep => absurd hdepth (by omega)

/-- A question and then the check of the answer. -/
theorem accounts_ask {node : Expr} {declared : Option Kind} (question : Query)
    (ask : EStateM EvaluationError σ Value) :
    Accounts none
      (do
        let v ← ask
        ofExcept (expectKind node declared v)
        pure v)
      (do
        let v ← noting (.ended (.query question)) ask
        tested (.answer node declared v) (expectKind node declared v)
        pure v) :=
  accounts_bind_none (accounts_noting _ ask) fun v =>
    accounts_bind_none (accounts_tested _ _) fun _ => accounts_pure v

theorem accountAll_eq_mapM (es : List Expr) :
    accountAll limits ctx es depth = es.mapM fun e => account limits ctx e depth := by
  induction es with
  | nil => rfl
  | cons e es ih => rw [accountAll, ih, List.mapM_cons]

theorem accountArguments_eq_mapM (node : Expr) (ps : List Parameter) (es : List Expr) :
    accountArguments limits ctx node ps es depth = (ps.zip es).mapM (fun x => do
      let v ← account limits ctx x.2 depth
      tested (.argument node x.1 v) (expectArgument node x.1 v)
      pure v) := by
  induction es generalizing ps with
  | nil => cases ps <;> rfl
  | cons e es ih =>
      cases ps with
      | nil => rfl
      | cons p ps =>
          rw [accountArguments, ih, List.zip_cons_cons, List.mapM_cons]
          simp only [bind_assoc, pure_bind]

theorem accounts_accountAll {es : List Expr}
    (ih : ∀ e ∈ es,
      Accounts e.placeholders.head? (eval limits ctx e depth) (account limits ctx e depth)) :
    Accounts (Expr.placeholdersAll es).head? (evalAll limits ctx es depth)
      (accountAll limits ctx es depth) := by
  rw [evalAll_eq_mapM, accountAll_eq_mapM]
  exact (logs_mapM (List.forall₂_same.mpr ih)).mono fun _ _ => reaches_of_each

/-- With one argument for each parameter no argument is passed over. -/
theorem accounts_accountArguments (node : Expr) {ps : List Parameter} {es : List Expr}
    (ih : ∀ e ∈ es,
      Accounts e.placeholders.head? (eval limits ctx e depth) (account limits ctx e depth))
    (hlen : es.length = ps.length) :
    Accounts (Expr.placeholdersAll es).head? (evalArguments limits ctx node ps es depth)
      (accountArguments limits ctx node ps es depth) := by
  rw [evalArguments_eq_mapM, accountArguments_eq_mapM]
  have hall : es.take ps.length = es := List.take_of_length_le (Nat.le_of_eq hlen)
  refine (logs_mapM_zip ps fun p e he => ?_).mono fun _ _ h => reaches_of_each (hall ▸ h)
  exact accounts_bind_none (ih e he) fun v =>
    accounts_bind_none (accounts_tested _ _) fun _ => accounts_pure v

/-- The evaluation of a tree with complete calls, which is not too high, comes to its first
placeholder, as far as its steps pass. -/
theorem accounts_account {e : Expr} (complete : e.CallsComplete)
    (within : e.height + depth ≤ limits.maxDepth + 1) :
    Accounts e.placeholders.head? (eval limits ctx e depth) (account limits ctx e depth) := by
  induction e using Expr.child_induction generalizing depth with
  | node e ih =>
      rcases child_within within with ⟨hdepth, hwithin⟩
      have children : ∀ c ∈ e.children, Accounts c.placeholders.head?
          (eval limits ctx c (depth + 1)) (account limits ctx c (depth + 1)) :=
        fun c hc => ih c hc (complete.child hc) (hwithin c hc)
      match e with
      | .constant (.string text) => exact accounts_visit hdepth (accounts_pure _)
      | .constant (.number d) => exact accounts_visit hdepth (accounts_pure _)
      | .constant (.set members) =>
          refine accounts_visit hdepth ?_
          exact accounts_bind_none (accounts_accountAll children) fun vs => accounts_tested _ _
      | .placeholder p =>
          rw [Expr.placeholders_placeholder, List.head?_cons]
          exact accounts_visit hdepth (accounts_unbound p)
      | .variable path template =>
          exact accounts_visit hdepth (accounts_ask (.variable template) _)
      | .call path template arguments =>
          refine accounts_visit hdepth ?_
          refine accounts_bind_none (accounts_accountArguments _ children complete.self) ?_
          exact fun vs => accounts_ask (.call template vs) _
      | .not operand =>
          refine accounts_visit hdepth ?_
          have hoperand := children operand (by simp [Expr.children])
          exact accounts_bind_none hoperand fun v => accounts_tested _ _
      | .binary op left right =>
          rw [Expr.placeholders, List.head?_append]
          refine accounts_visit hdepth ?_
          have hleft := children left (by simp [Expr.children])
          have hright := children right (by simp [Expr.children])
          refine accounts_bind hleft fun a => ?_
          exact accounts_bind_none hright fun b => accounts_tested _ _

end Trees

section Ends

variable {first : Option (Placeholder Expr)} {steps : List StepRun}
  {r : Except EvaluationError α}

/-- When all steps have passed and there is no result, the first placeholder has been
reached. -/
theorem Reaches.unbound_of_passed (h : Reaches first steps r) (passed : Passed steps)
    {p : Placeholder Expr} (hfirst : first = some p) : r = .error (.unbound p.render) := by
  cases h with
  | finished bound => cases hfirst.symm.trans bound
  | unbound reached =>
      cases hfirst.symm.trans reached
      rfl
  | @failed cause more step =>
      have hlast : (StepRun.mk step (some cause)).failure = none :=
        passed _ (List.mem_append_right _ (List.mem_singleton_self _))
      cases hlast

/-- When a step has failed, it is the last one, and its failure is the error. -/
theorem Reaches.failed_of_not_passed (h : Reaches first steps r) (hfailed : ¬ Passed steps) :
    ∃ before step cause, steps = before ++ [⟨step, some cause⟩] ∧ Passed before ∧
      r = .error cause := by
  cases h with
  | finished _ passed => exact absurd passed hfailed
  | unbound _ passed => exact absurd passed hfailed
  | @failed cause more step passed => exact ⟨more, step, cause, rfl, passed, rfl⟩

theorem Reaches.none_of_ok {a : α} (h : Reaches first steps (.ok a)) : first = none := by
  cases h with
  | finished bound => exact bound

/-- An evaluation that has passed its first check goes on with the ledger as without it. -/
theorem accounts_evaluateValue (limits : Limits) (ctx : Context σ) {e : Expr}
    (complete : e.CallsComplete) (hcheck : checkWithin limits e 1 = .ok ()) :
    Accounts e.placeholders.head? (evaluateValue limits ctx e) (account limits ctx e 1) := by
  have within := ((checkWithin_eq_ok_iff e 1).mp hcheck).2
  rw [evaluateValue, hcheck]
  exact accounts_account complete within

end Ends

end Evaluation
end Criteria
