import Criteria.Namespace.Basic
import Criteria.Proofs.LoggedRun
import Criteria.Proofs.Steps

/-!
# The order of questions

An evaluation asks its context about the variables and the calls of a tree, and about
nothing else.  It asks in the order in which the tree is written, about the arguments of a
call before the call, about both operands of a connective whatever the first one turned
out to be, and once for each occurrence of a tree.  It stops at the first question that
the context refuses and passes the refusal on.  Only what is left over in a call, beyond its
last parameter, is passed by.

To state this, the questions and the answers to them are written down.  Writing down
changes no answer, so what is said of an evaluation that is written down is said of every
evaluation.

**Results.**
* `asks_eval`, `asks_evaluateValue`: a tree asks its own questions.
* `consulted_eq_symbols`: with complete calls no question is passed by.
* `evaluateValue_consults`: the questions of an evaluation, from the first to the last.
-/

namespace Criteria

open Outcome

/-- The symbol that a question is about. -/
def Query.symbol : Query → Symbol
  | .variable template => .variable template
  | .call template _ => .function template

/-- A question and what the context answered to it. -/
structure Exchange where
  question : Query
  answer : Except EvaluationError Value

namespace Exchange

/-- The symbols that were asked about, in order. -/
def symbols (record : List Exchange) : List Symbol :=
  record.map fun x => x.question.symbol

/-- Every question of a record has got a value for an answer. -/
def Answered (record : List Exchange) : Prop :=
  ∀ x ∈ record, ∃ v, x.answer = .ok v

@[simp]
theorem symbols_append (record more : List Exchange) :
    symbols (record ++ more) = symbols record ++ symbols more :=
  List.map_append

theorem answered_nil : Answered [] :=
  List.forall_mem_nil _

theorem Answered.append {record more : List Exchange} (h : Answered record)
    (h' : Answered more) : Answered (record ++ more) :=
  List.forall_mem_append.mpr ⟨h, h'⟩

end Exchange

namespace Context

variable {σ ω : Type}

/-- The context that answers in the same way and enters each question in a log, with the
answer. -/
def logged (entry : Query → Except EvaluationError Value → ω) (ctx : Context σ) :
    Context (σ × List ω) where
  lookup template := noting (entry (.variable template)) (ctx.lookup template)
  invoke template values := noting (entry (.call template values)) (ctx.invoke template values)
  observe e v p := (ctx.observe e v p.1, p.2)

/-- The context that answers in the same way and writes down what it is asked. -/
def transcribed (ctx : Context σ) : Context (σ × List Exchange) :=
  ctx.logged Exchange.mk

end Context

namespace Expr

/-- The symbol that the root of a tree stands for, if it is a variable or a call. -/
def symbol? : Expr → Option Symbol
  | .variable _ template => some (.variable template)
  | .call _ template _ => some (.function template)
  | _ => none

/-- The symbols of all variables and calls of a tree, in the order of evaluation. -/
def symbols (e : Expr) : List Symbol :=
  e.postorder.filterMap symbol?

theorem symbols_eq (e : Expr) : e.symbols = e.children.flatMap symbols ++ e.symbol?.toList := by
  have hall : ∀ es : List Expr, (postorderAll es).filterMap symbol? = es.flatMap symbols := by
    intro es
    induction es with
    | nil => rfl
    | cons e es ih =>
        rw [postorderAll, List.filterMap_append, ih, List.flatMap_cons, symbols]
  rw [symbols, postorder_eq, List.filterMap_append, hall]
  cases h : e.symbol? <;> simp [h]

mutual

/-- The symbols that an evaluation asks about if it gets to the end.  Arguments beyond the
last parameter of a call are passed by. -/
def consulted : Expr → List Symbol
  | .constant (.set members) => (consultedEach members).flatten
  | .constant (.string _) => []
  | .constant (.number _) => []
  | .placeholder ⟨_, _, none⟩ => []
  | .placeholder ⟨_, _, some arguments⟩ => (consultedEach arguments).flatten
  | .variable _ template => [.variable template]
  | .call _ template arguments =>
      ((consultedEach arguments).take template.parameters.length).flatten ++
        [.function template]
  | .not operand => consulted operand
  | .binary _ left right => consulted left ++ consulted right

/-- The symbols that are asked about for each of the trees. -/
def consultedEach : List Expr → List (List Symbol)
  | [] => []
  | e :: es => consulted e :: consultedEach es

end

/-- The children that are evaluated: of the arguments of a call, those that have a
parameter. -/
def evaluated : Expr → List Expr
  | .call _ template arguments => arguments.take template.parameters.length
  | e => e.children

theorem evaluated_eq_children {e : Expr} (h : e.CallFits) : e.evaluated = e.children := by
  cases e with
  | call path template arguments => exact List.take_of_length_le (Nat.le_of_eq h)
  | _ => rfl

theorem consultedEach_eq_map (es : List Expr) : consultedEach es = es.map consulted := by
  induction es with
  | nil => rfl
  | cons e es ih => rw [consultedEach, ih, List.map_cons]

theorem consulted_eq (e : Expr) :
    e.consulted = e.evaluated.flatMap consulted ++ e.symbol?.toList := by
  cases e with
  | constant c =>
      cases c with
      | string s => rfl
      | number d => rfl
      | set members =>
          simp [consulted, consultedEach_eq_map, evaluated, children, symbol?, List.flatMap_def]
  | placeholder p =>
      obtain ⟨scope, name, _ | arguments⟩ := p
      · rfl
      · simp [consulted, consultedEach_eq_map, evaluated, children, symbol?, List.flatMap_def,
          Placeholder.argumentList]
  | «variable» path template => rfl
  | call path template arguments =>
      simp [consulted, consultedEach_eq_map, evaluated, symbol?, List.flatMap_def,
        ← List.map_take]
  | not operand => simp [consulted, evaluated, children, symbol?]
  | binary op left right => simp [consulted, evaluated, children, symbol?]

/-- With complete calls no question is passed by. -/
theorem consulted_eq_symbols {e : Expr} (complete : e.CallsComplete) :
    e.consulted = e.symbols := by
  induction e using child_induction with
  | node e ih =>
      rw [consulted_eq, symbols_eq, evaluated_eq_children complete.self]
      congr 1
      exact List.flatMap_congr fun c hc => ih c hc (complete.child hc)

end Expr

namespace Evaluation

open Exchange

variable {σ α β : Type}

/-- The questions that were asked, where certain ones are to be asked: all of these when
there is a result; when there is a failure of another kind, the first few; and when a
question is refused, those up to this one. -/
inductive Consults (expected : List Symbol) : Protocol EvaluationError Exchange α
  | finished {a : α} {asked : List Exchange} (answered : Answered asked)
      (all : symbols asked = expected) : Consults expected asked (.ok a)
  | stopped {cause : EvaluationError} {asked : List Exchange} (answered : Answered asked)
      (first : symbols asked <+: expected) : Consults expected asked (.error cause)
  | refused {cause : EvaluationError} {asked : List Exchange} {question : Query}
      (answered : Answered asked)
      (first : symbols asked ++ [question.symbol] <+: expected) :
      Consults expected (asked ++ [⟨question, .error cause⟩]) (.error cause)

/-- A step asks exactly these questions, as far as it gets: the second run is the first
one written down. -/
def Asks (expected : List Symbol) (x : EStateM EvaluationError σ α)
    (x' : EStateM EvaluationError (σ × List Exchange) α) : Prop :=
  Logs (Consults expected) x x'

/-- Within the limit entering a node and reporting its value are no work; beyond it there is
only the failure. -/
theorem logs_visit {ω : Type} {entry : Query → Except EvaluationError Value → ω}
    {P : Protocol EvaluationError ω Value} {limits : Limits} {ctx : Context σ} {node : Expr}
    {depth : Nat} {work : EStateM EvaluationError σ Value}
    {work' : EStateM EvaluationError (σ × List ω) Value} (h : Logs P work work')
    (hdeep : limits.maxDepth < depth → P [] (.error (.recursionLimit limits.maxDepth))) :
    Logs P (visit limits ctx node depth work)
      (visit limits (ctx.logged entry) node depth work') := by
  intro s log
  by_cases hd : depth ≤ limits.maxDepth
  · obtain ⟨added, hrun, hadded⟩ := h s log
    refine ⟨added, ?_, ?_⟩
    · rw [visit_of_le hd, visit_of_le hd, hrun]
      cases work s <;> rfl
    · rw [visit_of_le hd]
      generalize work s = r at hadded ⊢
      cases r <;> exact hadded
  · rw [visit_of_lt (by omega), visit_of_lt (by omega)]
    exact ⟨[], by rw [List.append_nil]; rfl, hdeep (by omega)⟩

section Protocols

variable {expected more : List Symbol} {asked : List Exchange}

theorem consults_ok (a : α) : Consults [] [] (.ok a) :=
  .finished answered_nil rfl

theorem consults_error (cause : EvaluationError) :
    Consults expected [] (.error cause : Except EvaluationError α) :=
  .stopped answered_nil List.nil_prefix

theorem consults_exchange (question : Query) (r : Except EvaluationError Value) :
    Consults [question.symbol] [⟨question, r⟩] r := by
  cases r with
  | ok v => exact .finished (by simp [Answered]) rfl
  | error cause =>
      have hfirst : symbols [] ++ [question.symbol] <+: [question.symbol] :=
        List.prefix_refl _
      exact .refused answered_nil hfirst

/-- Two steps in turn ask what the first asks, then what the second asks. -/
theorem Consults.append {r : Except EvaluationError β}
    (h : Then (Consults expected (α := α)) (fun _ => Consults more) asked r) :
    Consults (expected ++ more) asked r := by
  cases h with
  | stopped h =>
      cases h with
      | stopped answered first =>
          exact .stopped answered (first.trans (List.prefix_append _ _))
      | refused answered first =>
          exact .refused answered (first.trans (List.prefix_append _ _))
  | passed h h' =>
      cases h with
      | finished answered all =>
          subst all
          cases h' with
          | finished answered' all' =>
              exact .finished (answered.append answered') (by rw [symbols_append, all'])
          | stopped answered' first' =>
              refine .stopped (answered.append answered') ?_
              rw [symbols_append]
              exact (List.prefix_append_right_inj _).mpr first'
          | refused answered' first' =>
              rw [← List.append_assoc]
              refine .refused (answered.append answered') ?_
              rw [symbols_append, List.append_assoc]
              exact (List.prefix_append_right_inj _).mpr first'

/-- What follows a step and asks nothing changes nothing. -/
theorem Consults.append_nil {r : Except EvaluationError β}
    {Q : α → Protocol EvaluationError Exchange β}
    (h : Then (Consults expected) Q asked r)
    (hQ : ∀ a asked r, Q a asked r → Consults [] asked r) : Consults expected asked r := by
  rw [← List.append_nil expected]
  exact .append (h.imp (fun _ _ h => h) hQ)

theorem consults_of_silently {x r : Except EvaluationError α} (h : Silently x asked r) :
    Consults [] asked r := by
  obtain ⟨rfl, rfl⟩ := h
  cases r with
  | ok a => exact consults_ok a
  | error cause => exact consults_error cause

theorem consults_of_each {es : List Expr} {r : Except EvaluationError (List α)}
    (h : Each (fun e => Consults e.consulted) es asked r) :
    Consults (es.flatMap Expr.consulted) asked r := by
  refine Each.imp (fun es => Consults (es.flatMap Expr.consulted)) (consults_ok [])
    (fun e es asked r h => ?_) h
  rw [List.flatMap_cons]
  exact .append (h.imp (fun _ _ h => h) fun a _ _ h =>
    .append_nil h fun _ _ _ => consults_of_silently)

end Protocols

section Trees

variable {limits : Limits} {ctx : Context σ} {depth : Nat} {expected more : List Symbol}

theorem asks_ofExcept (x : Except EvaluationError α) :
    Asks [] (ofExcept x : EStateM EvaluationError σ α) (ofExcept x) :=
  (logs_ofExcept x).mono fun _ _ => consults_of_silently

theorem asks_pure (a : α) : Asks [] (pure a : EStateM EvaluationError σ α) (pure a) :=
  asks_ofExcept (.ok a)

/-- A failure that does not come from the context, wherever it is met. -/
theorem asks_throw (cause : EvaluationError) :
    Asks expected (throw cause : EStateM EvaluationError σ α) (throw cause) := by
  refine (logs_throw cause).mono ?_
  rintro _ _ ⟨rfl, rfl⟩
  exact consults_error cause

theorem asks_bind {x : EStateM EvaluationError σ α} {f : α → EStateM EvaluationError σ β}
    {x' : EStateM EvaluationError (σ × List Exchange) α}
    {f' : α → EStateM EvaluationError (σ × List Exchange) β}
    (hx : Asks expected x x') (hf : ∀ a, Asks more (f a) (f' a)) :
    Asks (expected ++ more) (x >>= f) (x' >>= f') :=
  (logs_bind hx hf).mono fun _ _ => .append

theorem asks_bind_nil {x : EStateM EvaluationError σ α} {f : α → EStateM EvaluationError σ β}
    {x' : EStateM EvaluationError (σ × List Exchange) α}
    {f' : α → EStateM EvaluationError (σ × List Exchange) β}
    (hx : Asks expected x x') (hf : ∀ a, Asks [] (f a) (f' a)) :
    Asks expected (x >>= f) (x' >>= f') := by
  rw [← List.append_nil expected]
  exact asks_bind hx hf

theorem asks_exchange (question : Query) (ask : EStateM EvaluationError σ Value) :
    Asks [question.symbol] ask (noting (Exchange.mk question) ask) := by
  refine (logs_noting _ ask).mono ?_
  rintro _ r rfl
  exact consults_exchange question r

/-- Entering a node and reporting its value ask nothing. -/
theorem asks_visit {node : Expr} {work : EStateM EvaluationError σ Value}
    {work' : EStateM EvaluationError (σ × List Exchange) Value}
    (h : Asks expected work work') :
    Asks expected (visit limits ctx node depth work)
      (visit limits ctx.transcribed node depth work') :=
  logs_visit h fun _ => consults_error _

/-- An answer is asked for before its kind is enforced. -/
theorem asks_expectKind {node : Expr} {declared : Option Kind} (question : Query)
    (ask : EStateM EvaluationError σ Value) :
    Asks [question.symbol]
      (do
        let v ← ask
        ofExcept (expectKind node declared v)
        pure v)
      (do
        let v ← noting (Exchange.mk question) ask
        ofExcept (expectKind node declared v)
        pure v) :=
  asks_bind_nil (asks_exchange question ask) fun v =>
    asks_bind_nil (asks_ofExcept _) fun _ => asks_pure v

theorem asks_evalAll {es : List Expr}
    (ih : ∀ e ∈ es,
      Asks e.consulted (eval limits ctx e depth) (eval limits ctx.transcribed e depth)) :
    Asks (es.flatMap Expr.consulted) (evalAll limits ctx es depth)
      (evalAll limits ctx.transcribed es depth) := by
  rw [evalAll_eq_mapM, evalAll_eq_mapM]
  exact (logs_mapM (List.forall₂_same.mpr ih)).mono fun _ _ => consults_of_each

theorem asks_evalArguments (node : Expr) (ps : List Parameter) {es : List Expr}
    (ih : ∀ e ∈ es,
      Asks e.consulted (eval limits ctx e depth) (eval limits ctx.transcribed e depth)) :
    Asks ((es.take ps.length).flatMap Expr.consulted)
      (evalArguments limits ctx node ps es depth)
      (evalArguments limits ctx.transcribed node ps es depth) := by
  rw [evalArguments_eq_mapM, evalArguments_eq_mapM]
  refine (logs_mapM_zip ps fun p e he => ?_).mono fun _ _ => consults_of_each
  exact asks_bind_nil (ih e he) fun v => asks_bind_nil (asks_ofExcept _) fun _ => asks_pure v

/-- The evaluation of a tree asks about its variables and calls, in order. -/
theorem asks_eval (e : Expr) (depth : Nat) :
    Asks e.consulted (eval limits ctx e depth) (eval limits ctx.transcribed e depth) := by
  induction e using Expr.child_induction generalizing depth with
  | node e ih =>
      have children : ∀ c ∈ e.children, Asks c.consulted (eval limits ctx c (depth + 1))
          (eval limits ctx.transcribed c (depth + 1)) :=
        fun c hc => ih c hc (depth + 1)
      match e with
      | .constant (.string text) => exact asks_visit (asks_pure _)
      | .constant (.number d) => exact asks_visit (asks_pure _)
      | .constant (.set members) =>
          rw [Expr.consulted_eq]
          exact asks_visit (asks_bind (asks_evalAll children) fun vs => asks_ofExcept _)
      | .placeholder p => exact asks_visit (asks_throw _)
      | .variable path template =>
          exact asks_visit (asks_expectKind (.variable template) _)
      | .call path template arguments =>
          rw [Expr.consulted_eq]
          refine asks_visit (asks_bind (asks_evalArguments _ _ children) fun vs => ?_)
          exact asks_expectKind (.call template vs) _
      | .not operand =>
          have hoperand := children operand (by simp [Expr.children])
          exact asks_visit (asks_bind_nil hoperand fun v => asks_ofExcept _)
      | .binary op left right =>
          have hleft := children left (by simp [Expr.children])
          have hright := children right (by simp [Expr.children])
          refine asks_visit (asks_bind hleft fun l => ?_)
          exact asks_bind_nil hright fun r => asks_ofExcept _

theorem asks_evaluateValue (e : Expr) :
    Asks e.consulted (evaluateValue limits ctx e) (evaluateValue limits ctx.transcribed e) :=
  asks_bind (asks_ofExcept _) fun _ => asks_eval e 1

end Trees

section Transcripts

variable {limits : Limits} {ctx : Context σ} {expected : List Symbol} {asked : List Exchange}
  {r : Except EvaluationError α}

theorem Consults.symbols_prefix (h : Consults expected asked r) :
    symbols asked <+: expected := by
  cases h with
  | finished answered all => exact all ▸ List.prefix_refl _
  | stopped answered first => exact first
  | refused answered first => simpa [symbols] using first

theorem Consults.symbols_eq {a : α} (h : Consults expected asked (.ok a)) :
    symbols asked = expected := by
  cases h with
  | finished answered all => exact all

/-- A question that was refused is the last one, and the refusal is the failure. -/
theorem Consults.refused_last {before after : List Exchange} {x : Exchange}
    {cause : EvaluationError} (h : Consults expected (before ++ x :: after) r)
    (hx : x.answer = .error cause) : after = [] ∧ r = .error cause := by
  have notAnswered : ∀ asked : List Exchange, Answered asked → x ∉ asked := by
    intro asked answered hmem
    obtain ⟨v, hv⟩ := answered x hmem
    rw [hv] at hx
    cases hx
  generalize hasked : before ++ x :: after = asked at h
  have hmem : x ∈ before ++ x :: after := List.mem_append_right before List.mem_cons_self
  cases h with
  | finished answered all => exact absurd (hasked ▸ hmem) (notAnswered _ answered)
  | stopped answered first => exact absurd (hasked ▸ hmem) (notAnswered _ answered)
  | @refused cause' asked question answered first =>
      rcases List.eq_nil_or_concat after with rfl | ⟨rest, last, rfl⟩
      · obtain ⟨-, hlast⟩ := List.append_inj' hasked rfl
        cases hlast
        cases hx
        exact ⟨rfl, rfl⟩
      · rw [List.concat_eq_append, ← List.cons_append, ← List.append_assoc] at hasked
        obtain ⟨hasked, -⟩ := List.append_inj' hasked rfl
        exact absurd (hasked ▸ List.mem_append_right before List.mem_cons_self)
          (notAnswered asked answered)

/-- What an evaluation asks its context, with the answers, in order. -/
def transcript (limits : Limits) (ctx : Context σ) (e : Expr) (s : σ) : List Exchange :=
  (finalState (evaluateValue limits ctx.transcribed e (s, []))).2

/-- Nothing is asked before the tree has passed the check. -/
theorem transcript_of_checkWithin_error {e : Expr} {cause : EvaluationError}
    (h : checkWithin limits e 1 = .error cause) (s : σ) : transcript limits ctx e s = [] := by
  rw [transcript, evaluateValue_of_checkWithin_error limits ctx.transcribed h]
  rfl

/-- The questions of an evaluation of a tree with complete calls.  Writing them down does
not change the evaluation.  There are none if the check or the limit of depth rejects the
tree.  They are about the variables and calls of the tree in the order of evaluation, from
the first on, and about all of them if the tree has a value.  A refused question is the
last one, and the refusal is the error of the evaluation. -/
theorem evaluateValue_consults {e : Expr} (complete : e.CallsComplete) (s : σ) :
    withoutLog (evaluateValue limits ctx.transcribed e (s, [])) =
        evaluateValue limits ctx e s ∧
      (e.check ≠ .ok () ∨ limits.maxDepth < e.height →
        transcript limits ctx e s = [] ∧
          ∃ cause, evaluateValue limits ctx e s = .error cause s) ∧
      symbols (transcript limits ctx e s) <+: e.symbols ∧
      (∀ v s', evaluateValue limits ctx e s = .ok v s' →
        symbols (transcript limits ctx e s) = e.symbols) ∧
      ∀ before x after cause, transcript limits ctx e s = before ++ x :: after →
        x.answer = .error cause →
          after = [] ∧ ∃ s', evaluateValue limits ctx e s = .error cause s' := by
  have hasks := @asks_evaluateValue _ limits ctx e
  have hconsults : Consults e.symbols (transcript limits ctx e s)
      (answer (evaluateValue limits ctx e s)) :=
    Expr.consulted_eq_symbols complete ▸ hasks.finalLog s
  refine ⟨hasks.withoutLog_eq s [], ?_, hconsults.symbols_prefix, ?_, ?_⟩
  · intro hrejected
    cases hcheck : checkWithin limits e 1 with
    | error cause =>
        exact ⟨transcript_of_checkWithin_error hcheck s, cause,
          evaluateValue_of_checkWithin_error limits ctx hcheck s⟩
    | ok =>
        obtain ⟨hchecked, hheight⟩ := (checkWithin_eq_ok_iff e 1).mp hcheck
        rcases hrejected with hrejected | hdeep
        · exact absurd hchecked hrejected
        · omega
  · intro v s' hv
    rw [answer_eq_ok_iff.mpr ⟨s', hv⟩] at hconsults
    exact hconsults.symbols_eq
  · intro before x after cause hsplit hx
    rw [hsplit] at hconsults
    obtain ⟨hafter, hcause⟩ := hconsults.refused_last hx
    exact ⟨hafter, answer_eq_error_iff.mp hcause⟩

/-- A call whose function refuses, after its argument and after an operand that already
decides the disjunction. -/
theorem evaluateValue_consults_refused :
    let opened : VariableTemplate := ⟨⟨["open"]⟩, some .boolean⟩
    let area : VariableTemplate := ⟨⟨["area"]⟩, none⟩
    let near : FunctionTemplate Expr := ⟨⟨["near"]⟩, [⟨"area", none⟩], [], some .boolean⟩
    let e : Expr := .binary .or (.variable ⟨["open"]⟩ opened)
      (.binary .and (.call ⟨["near"]⟩ near [.variable ⟨["area"]⟩ area])
        (.variable ⟨["open"]⟩ opened))
    let ctx : Context Nat :=
      ⟨fun _ n => .ok (.boolean true) (n + 1), fun _ _ n => .error (.undefinedFunction "near") n,
        fun _ _ n => n⟩
    e.CallsComplete ∧
      e.symbols = [.variable opened, .variable area, .function near, .variable opened] ∧
      symbols (transcript {} ctx e 0) <+: e.symbols ∧
      transcript {} ctx e 0 =
        [⟨.variable opened, .ok (.boolean true)⟩, ⟨.variable area, .ok (.boolean true)⟩] ++
          ⟨.call near [.boolean true], .error (.undefinedFunction "near")⟩ :: [] ∧
      ∃ s', evaluateValue {} ctx e 0 = .error (.undefinedFunction "near") s' := by
  intro opened area near e ctx
  have complete : e.CallsComplete := by decide
  have htranscript : transcript {} ctx e 0 =
      [⟨.variable opened, .ok (.boolean true)⟩, ⟨.variable area, .ok (.boolean true)⟩] ++
        ⟨.call near [.boolean true], .error (.undefinedFunction "near")⟩ :: [] := rfl
  obtain ⟨-, -, hprefix, -, hrefused⟩ := @evaluateValue_consults _ {} ctx e complete 0
  exact ⟨complete, rfl, hprefix, htranscript, (hrefused _ _ _ _ htranscript rfl).2⟩

end Transcripts

end Evaluation

end Criteria
