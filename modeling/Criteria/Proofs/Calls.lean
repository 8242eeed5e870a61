import Criteria.Proofs.Boundness
import Criteria.Proofs.Invariants

/-!
# What calls are given

A call is evaluated by pairing its arguments with the parameters of its template.  Arguments
beyond the last parameter would be passed over, and parameters beyond the last argument
would get nothing.  Neither happens in a tree that has been put together from the ways to
build one, however often it has been bound in between: building a call fills in the defaults
of the arguments that are left out, and binding, which builds the calls of a tree anew,
keeps their number.  The defaults become arguments themselves, so what is said of the calls
in a tree has to hold of those in the defaults of the templates, too.

**Results.**
* `complete_instantiate`: substitution keeps calls complete.
* `Assembled.wellBuilt`: in a tree that has been assembled, every call is complete.
* `assembled_calls_due`: what the calls of such a tree are given in an evaluation.
-/

namespace Criteria

open Outcome

namespace Symbol

/-- The defaults of a template; a variable has none. -/
def defaults : Symbol → List (Constant Expr)
  | .variable _ => []
  | .function template => template.defaults

theorem defaults_moved (q : Path) (s : Symbol) : (s.moved q).defaults = s.defaults := by
  cases s <;> rfl

theorem built_iff_defaults (s : Symbol) :
    s.Built ↔ ∀ c ∈ s.defaults, (Expr.constant c).Built := by
  cases s with
  | «variable» template => exact ⟨nofun, fun _ => trivial⟩
  | function template => exact Iff.rfl

end Symbol

/-- The defaults of a template that lookup finds are those of a template of the draft. -/
theorem exists_holds_of_resolve {d : Draft} {space : Namespace} (hd : d.register = .ok space)
    {locale : Option String} {segments : List String} {symbol : Symbol}
    (h : space.resolve locale segments = some symbol) :
    ∃ route o, d.Holds route o ∧ symbol.defaults = o.symbol.defaults := by
  obtain ⟨path, hplace⟩ := Draft.place_of_register hd
  obtain ⟨route, o, hr, -, rfl⟩ := (resolve_eq_some_iff d.covers_locales hplace).mp h
  exact ⟨route, o, hr, Symbol.defaults_moved _ _⟩

namespace Expr

section Completeness

variable {space : Namespace} {locale : Option String} {path : Path}
  {template : FunctionTemplate Expr} {arguments : List Expr} {e u : Expr}

theorem callsComplete_leaf (hfits : e.CallFits) (h : e.children = []) : e.CallsComplete :=
  everywhere_iff.mpr ⟨hfits, by simp [h]⟩

theorem callsComplete_ofMembers {members : List Expr}
    (hmembers : ∀ m ∈ members, m.CallsComplete) (h : ofMembers members = .ok u) :
    u.CallsComplete := by
  obtain ⟨kept, hkept, rfl⟩ := ofMembers_eq_ok_iff.mp h
  refine everywhere_iff.mpr ⟨trivial, ?_⟩
  intro m hm
  exact hmembers m ((Distinct.collect_sublist isSet hkept).subset hm)

theorem boundCall_eq_ok_iff :
    boundCall path template arguments = .ok u ↔
      ∃ out, template.complete arguments = .ok out ∧ u = .call path template out := by
  rw [boundCall, bind_eq_ok_iff]
  simp only [pure, Except.pure, Except.ok.injEq, eq_comm]

/-- A call has the arguments that it is given, and defaults of its template. -/
theorem mem_of_complete {out : List Expr} (h : template.complete arguments = .ok out) {a : Expr}
    (ha : a ∈ out) : a ∈ arguments ∨ ∃ c ∈ template.defaults, a = constant c := by
  obtain ⟨-, rfl⟩ := (template.complete_eq_ok_iff arguments out).mp h
  rcases List.mem_append.mp ha with ha | ha
  · exact .inl ha
  · obtain ⟨c, hc, rfl⟩ := List.mem_map.mp ha
    exact .inr ⟨c, List.mem_of_mem_drop hc, rfl⟩

/-- A call is complete once the defaults have been filled in. -/
theorem callsComplete_boundCall (hdefaults : ∀ c ∈ template.defaults, (constant c).CallsComplete)
    (harguments : ∀ a ∈ arguments, a.CallsComplete)
    (h : boundCall path template arguments = .ok u) : u.CallsComplete := by
  obtain ⟨out, hout, rfl⟩ := boundCall_eq_ok_iff.mp h
  refine everywhere_iff.mpr ⟨FunctionTemplate.length_complete hout, ?_⟩
  intro a ha
  rcases mem_of_complete hout ha with ha | ⟨c, hc, rfl⟩
  · exact harguments a ha
  · exact hdefaults c hc

theorem built_boundCall (hdefaults : ∀ c ∈ template.defaults, (constant c).Built)
    (harguments : ∀ a ∈ arguments, a.Built)
    (h : boundCall path template arguments = .ok u) : u.Built := by
  obtain ⟨out, hout, rfl⟩ := boundCall_eq_ok_iff.mp h
  refine built_call ?_ hdefaults
  intro x hx
  rcases mem_of_complete hout hx with hx | ⟨c, hc, rfl⟩
  · exact harguments x hx
  · exact hdefaults c hc

/-- Substitution keeps calls complete, when the defaults of the symbols that it finds hold
complete calls only: a call in the tree keeps the number of its arguments, and a new one is
built with its defaults. -/
theorem complete_instantiate
    (hspace : ∀ segments symbol, space.resolve locale segments = some symbol →
      ∀ c ∈ symbol.defaults, (constant c).CallsComplete)
    (he : e.CallsComplete) (h : e.instantiate space locale = .ok u) : u.CallsComplete := by
  induction e using child_induction generalizing u with
  | node e ih =>
      have children : ∀ {us : List Expr},
          List.Forall₂ (fun c u => c.instantiate space locale = .ok u) e.children us →
            ∀ u ∈ us, u.CallsComplete := by
        intro us hall u hu
        obtain ⟨c, hc, hcu⟩ := exists_left_of_forall₂ hall hu
        exact ih c hc (he.child hc) hcu
      cases rebuilt_of_instantiate h with
      | string s => exact he
      | number d => exact he
      | @set members us kept hall hkept =>
          have hset := ofMembers_eq_ok_iff.mpr ⟨kept, hkept, rfl⟩
          exact callsComplete_ofMembers (children hall) hset
      | name htarget => exact callsComplete_leaf trivial rfl
      | @request p path template us htarget hall =>
          obtain ⟨hresolve, -, -, hsuits⟩ := Placeholder.target_eq_ok_iff.mp htarget
          -- The target takes the arguments, so the call is built and its defaults filled in.
          rw [Placeholder.Suits, hall.length_eq] at hsuits
          have hcomplete := (template.complete_eq_ok_iff us _).mpr ⟨hsuits, rfl⟩
          have hcall : boundCall path template us = .ok _ :=
            boundCall_eq_ok_iff.mpr ⟨_, hcomplete, rfl⟩
          rw [hall.length_eq]
          exact callsComplete_boundCall (hspace _ _ hresolve) (children hall) hcall
      | «variable» path template => exact he
      | call path template hall =>
          exact everywhere_iff.mpr ⟨hall.length_eq.symm.trans he.self, children hall⟩
      | not hu =>
          refine everywhere_iff.mpr ⟨trivial, ?_⟩
          exact children (.cons hu .nil)
      | binary op hl hr =>
          refine everywhere_iff.mpr ⟨trivial, ?_⟩
          exact children (.cons hl (.cons hr .nil))

end Completeness

section Assembly

/-- A tree that has been put together from the ways to build one.  At any time it may have
been bound in a registered namespace; like all templates, those of the namespace have
defaults that have been put together in the same way. -/
inductive Assembled : Expr → Prop
  | string (s : String) : Assembled (.string s)
  | number (d : Decimal) : Assembled (.number d)
  | set {members : List Expr} {u : Expr} (hmembers : ∀ m ∈ members, Assembled m)
      (h : ofMembers members = .ok u) : Assembled u
  | placeholder {p : Placeholder Expr} (harguments : ∀ a ∈ p.argumentList, Assembled a) :
      Assembled (.placeholder p)
  | variable (path : Path) (template : VariableTemplate) : Assembled (.variable path template)
  | call {path : Path} {template : FunctionTemplate Expr} {arguments : List Expr} {u : Expr}
      (hdefaults : ∀ c ∈ template.defaults, Assembled (.constant c))
      (harguments : ∀ a ∈ arguments, Assembled a)
      (h : boundCall path template arguments = .ok u) : Assembled u
  | not {operand : Expr} (h : Assembled operand) : Assembled (.not operand)
  | binary (op : BinaryOp) {left right : Expr} (hl : Assembled left) (hr : Assembled right) :
      Assembled (.binary op left right)
  | bind {d : Draft} {space : Namespace} {locale : Option String} {e u : Expr}
      (hd : d.register = .ok space)
      (hdefaults : ∀ route o, d.Holds route o →
        ∀ c ∈ o.symbol.defaults, Assembled (.constant c))
      (he : Assembled e) (h : e.bind space locale = .ok u) : Assembled u

/-- What assembling a tree makes sure of: set literals that can be built, and complete
calls. -/
structure WellBuilt (e : Expr) : Prop where
  built : e.Built
  complete : e.CallsComplete

/-- Binding keeps what assembling makes sure of. -/
theorem WellBuilt.bind {d : Draft} {space : Namespace} {locale : Option String} {e u : Expr}
    (hd : d.register = .ok space)
    (hdefaults : ∀ route o, d.Holds route o → ∀ c ∈ o.symbol.defaults, (constant c).WellBuilt)
    (he : e.WellBuilt) (h : e.bind space locale = .ok u) : u.WellBuilt := by
  obtain ⟨hu, -⟩ := (bind_eq_ok_iff_instantiate he.built).mp h
  have hfound : ∀ segments symbol, space.resolve locale segments = some symbol →
      ∀ c ∈ symbol.defaults, (constant c).WellBuilt := by
    intro segments symbol hresolve c hc
    obtain ⟨route, o, hr, hsame⟩ := exists_holds_of_resolve hd hresolve
    rw [hsame] at hc
    exact hdefaults route o hr c hc
  constructor
  · refine built_instantiate ?_ he.built hu
    intro segments symbol hresolve
    exact symbol.built_iff_defaults.mpr fun c hc => (hfound segments symbol hresolve c hc).built
  · refine complete_instantiate ?_ he.complete hu
    intro segments symbol hresolve c hc
    exact (hfound segments symbol hresolve c hc).complete

/-- In a tree that has been assembled, every set literal is one that can be built and every
call has one argument for each parameter. -/
theorem Assembled.wellBuilt {e : Expr} (h : e.Assembled) : e.WellBuilt := by
  induction h with
  | string s => exact ⟨built_leaf rfl, callsComplete_leaf trivial rfl⟩
  | number d => exact ⟨built_number d, callsComplete_leaf trivial rfl⟩
  | set _ h ih =>
      exact ⟨built_ofMembers (fun m hm => (ih m hm).built) h,
        callsComplete_ofMembers (fun m hm => (ih m hm).complete) h⟩
  | placeholder _ ih =>
      exact ⟨built_placeholder fun a ha => (ih a ha).built,
        everywhere_iff.mpr ⟨trivial, fun a ha => (ih a ha).complete⟩⟩
  | «variable» path template => exact ⟨built_leaf rfl, callsComplete_leaf trivial rfl⟩
  | call _ _ h ihdefaults iharguments =>
      constructor
      · exact built_boundCall (fun c hc => (ihdefaults c hc).built)
          (fun a ha => (iharguments a ha).built) h
      · exact callsComplete_boundCall (fun c hc => (ihdefaults c hc).complete)
          (fun a ha => (iharguments a ha).complete) h
  | not _ ih =>
      constructor
      · exact built_not ih.built
      · exact everywhere_iff.mpr ⟨trivial, List.forall_mem_singleton.mpr ih.complete⟩
  | binary op _ _ ihl ihr =>
      constructor
      · exact built_binary op ihl.built ihr.built
      · exact everywhere_iff.mpr ⟨trivial,
          List.forall_mem_cons.mpr ⟨ihl.complete, List.forall_mem_singleton.mpr ihr.complete⟩⟩
  | bind hd _ _ h ihdefaults ih => exact ih.bind hd ihdefaults h

end Assembly

end Expr

namespace Evaluation

variable {σ : Type} {limits : Limits} {ctx : Context σ} {e : Expr}

section Calls

/-- A call that a recorded evaluation may make is one that the plain evaluation may make. -/
theorem Due.of_transcribed {template : FunctionTemplate Expr} {values : List Value}
    (h : Due limits ctx.transcribed e template values) : Due limits ctx e template values := by
  obtain ⟨path, arguments, hmem, hvalues⟩ := h.origin
  refine ⟨⟨path, arguments, hmem, hvalues.imp ?_⟩, h.kinds⟩
  rintro a v ⟨depth, ⟨s, log⟩, ⟨s', log'⟩, hv⟩
  refine ⟨depth, s, s', ?_⟩
  rw [← (asks_eval a depth).withoutLog_eq s log, hv]
  rfl

/-- All calls on the record are due. -/
def AllDue (limits : Limits) (ctx : Context σ) (e : Expr) (p : σ × List Exchange) : Prop :=
  ∀ x ∈ p.2, ∀ template values, x.question = .call template values →
    Due limits ctx e template values

theorem preserves_noting (question : Query) {ask : EStateM EvaluationError σ Value}
    (hdue : ∀ template values, question = .call template values →
      Due limits ctx e template values) :
    Preserves (AllDue limits ctx e) (noting (Exchange.mk question) ask) := by
  intro p hp
  have hadded : ∀ reply s, AllDue limits ctx e (s, p.2 ++ [⟨question, reply⟩]) := by
    intro reply s
    exact List.forall_mem_append.mpr ⟨hp, List.forall_mem_singleton.mpr hdue⟩
  rw [noting]
  cases ask p.1 with
  | ok v s => exact hadded (.ok v) s
  | error cause s => exact hadded (.error cause) s

/-- A tree with complete calls makes none but those that are due. -/
theorem due_of_mem_transcript (complete : e.CallsComplete) (s : σ) :
    ∀ x ∈ transcript limits ctx e s, ∀ template values, x.question = .call template values →
      Due limits ctx e template values := by
  have hpreserves : Preserves (AllDue limits ctx e)
      (evaluateValue limits ctx.transcribed e) := by
    refine preserves_evaluateValue complete ?_ ?_ ?_
    · intro template
      refine preserves_noting (.variable template) ?_
      rintro _ _ ⟨⟩
    · intro template values hdue
      refine preserves_noting (.call template values) ?_
      rintro _ _ ⟨⟩
      exact hdue.of_transcribed
    · intro node v p hp
      exact hp
  have hstart : AllDue limits ctx e (s, []) := by
    intro x hx
    cases hx
  exact hpreserves (s, []) hstart

/-- In a tree that has been assembled, bound or not, every call keeps one argument for each
parameter of its template.  Whenever its evaluation makes a call, the tree has a call of
this template, and what the function is given are the values of the arguments there, in
their order: one for each parameter, and of the kind that the parameter declares if it
declares one. -/
theorem assembled_calls_due (h : e.Assembled) (limits : Limits) (ctx : Context σ) (s : σ) :
    e.CallsComplete ∧
      ∀ x ∈ transcript limits ctx e s, ∀ template values,
        x.question = .call template values →
          values.length = template.parameters.length ∧
            List.Forall₂ (fun p v => Kind.Agrees p.kind v.kind) template.parameters values ∧
            ∃ path arguments, .call path template arguments ∈ e.subtrees ∧
              ValuesOf limits ctx arguments values := by
  have complete := h.wellBuilt.complete
  refine ⟨complete, ?_⟩
  intro x hx template values hcall
  have hdue := due_of_mem_transcript complete s x hx template values hcall
  exact ⟨hdue.kinds.length_eq.symm, hdue.kinds, hdue.origin⟩

/-- A call that leaves its last argument out, bound and then evaluated. -/
theorem assembled_calls_due_round :
    let digits : Parameter × Constant Expr := (⟨"digits", some .number⟩, .number (.ofInt 2))
    let round : FunctionTemplate Expr :=
      ⟨⟨["round"]⟩, [⟨"value", some .number⟩], [digits], some .number⟩
    let d : Draft := Draft.root.bind (Object.ofSymbol (.function round))
    let e : Expr := .placeholder ⟨[], ⟨["round"]⟩, some [.number (.ofInt 7)]⟩
    let ctx : Context Nat :=
      ⟨fun _ n => .error (.undefinedVariable "x") n, fun _ _ n => .ok (.number (.ofInt 7)) (n + 1),
        fun _ _ n => n⟩
    ∃ space u, d.register = .ok space ∧ e.bind space none = .ok u ∧ u.Assembled ∧
      u.CallsComplete ∧
      transcript {} ctx u 0 =
        [⟨.call round [.number (.ofInt 7), .number (.ofInt 2)], .ok (.number (.ofInt 7))⟩] ∧
      List.Forall₂ (fun (p : Parameter) (v : Value) => Kind.Agrees p.kind v.kind)
        round.parameters [.number (.ofInt 7), .number (.ofInt 2)] := by
  intro digits round d e ctx
  have hdefaults : ∀ route o, d.Holds route o →
      ∀ c ∈ o.symbol.defaults, (Expr.constant c).Assembled := by
    intro route o hr c hc
    cases hr with
    | object ho =>
        rw [List.mem_singleton.mp ho] at hc
        rw [List.mem_singleton.mp hc]
        exact .number (.ofInt 2)
    | deeper hs _ => cases hs
  have he : e.Assembled := by
    refine .placeholder ?_
    intro a ha
    rw [List.mem_singleton.mp ha]
    exact .number (.ofInt 7)
  have hbind : ∃ space u, d.register = .ok space ∧ e.bind space none = .ok u ∧
      transcript {} ctx u 0 =
        [⟨.call round [.number (.ofInt 7), .number (.ofInt 2)], .ok (.number (.ofInt 7))⟩] := by
    simp only [d, e, round, digits]
    exact ⟨_, _, rfl, rfl, rfl⟩
  obtain ⟨space, u, hspace, hu, htranscript⟩ := hbind
  have hassembled : u.Assembled := .bind hspace hdefaults he hu
  obtain ⟨hcomplete, hcalls⟩ := assembled_calls_due hassembled {} ctx 0
  have hfirst := hcalls _ (htranscript ▸ List.mem_singleton.mpr rfl) _ _ rfl
  exact ⟨space, u, hspace, hu, hassembled, hcomplete, htranscript, hfirst.2.1⟩

end Calls

end Evaluation
end Criteria
