import Criteria.Proofs.Boundness
import Criteria.Proofs.WellFormed

/-!
# Equal trees have equal values

Equality of trees takes numbers by value, set literals by their members and the defaults of
a template in the same way.  In an assignment of well-formed values and of functions that
cannot tell equal arguments apart, none of this shows in a value: of two equal trees both
have a value or neither has one, and the two values are equal.  So it does no harm that a
set literal keeps only one of several equal members.

**Results.**
* `mirrors_of_same`: of two equal trees each can take the place of the other.
* `mirrors_set_alike`: so it is for set literals whose members cover each other.
* `equalValues_of_beq`: equal trees have equal values, and building or binding a set
  literal does not change its value.
-/

namespace Criteria

open Outcome Evaluation

/-- Both outcomes are failures, or both are values and these are well formed and equal. -/
def AlikeOutcomes {ε : Type} : Except ε Value → Except ε Value → Prop
  | .ok v, .ok w => v.Alike w
  | .error _, .error _ => True
  | _, _ => False

namespace Assignment

/-- The variables have well-formed values, and the functions do not tell equal arguments
apart: on arguments that are equal place by place they fail together or have equal
well-formed results. -/
structure Respectful (a : Assignment) : Prop where
  wellFormed : ∀ name v, a.valueOf? name = some v → v.WellFormed
  congr : ∀ name f, a.functionOf? name = some f →
    ∀ vs ws, List.Forall₂ Value.Alike vs ws → AlikeOutcomes (f vs) (f ws)

variable {a : Assignment} (ha : a.Respectful)
include ha

theorem Respectful.wellFormed_value {t : VariableTemplate} {v : Value}
    (h : a.value t = .ok v) : v.WellFormed := by
  simp only [value] at h
  cases hv : a.valueOf? t.qualifiedName.render with
  | none =>
      rw [hv] at h
      cases h
  | some w =>
      rw [hv] at h
      cases h
      exact ha.wellFormed _ _ hv

/-- Functions of one name have equal results for equal arguments. -/
theorem Respectful.result_congr {t t' : FunctionTemplate Expr} {vs ws : List Value}
    {v : Value} (hname : t.qualifiedName = t'.qualifiedName)
    (hvs : List.Forall₂ Value.Alike vs ws) (h : a.result t vs = .ok v) :
    ∃ w, a.result t' ws = .ok w ∧ v.Alike w := by
  simp only [result, ← hname] at h ⊢
  cases hf : a.functionOf? t.qualifiedName.render with
  | none =>
      rw [hf] at h
      cases h
  | some f =>
      rw [hf] at h
      have hcongr := ha.congr _ f hf vs ws hvs
      cases hw : f ws with
      | ok w =>
          simp only [h, hw, AlikeOutcomes] at hcongr
          exact ⟨w, hw, hcongr⟩
      | error cause => simp [h, hw, AlikeOutcomes] at hcongr

end Assignment

namespace Oracle

variable {o : Oracle} {es es' : List Expr}

theorem exists_denote_of_forall (h : ∀ e ∈ es, ∃ v, o.denote e = .ok v) :
    ∃ vs, List.Forall₂ (fun e v => o.denote e = .ok v) es vs := by
  induction es with
  | nil => exact ⟨[], .nil⟩
  | cons e es ih =>
      obtain ⟨v, hv⟩ := h e List.mem_cons_self
      obtain ⟨vs, hvs⟩ := ih fun e' he' => h e' (List.mem_cons_of_mem e he')
      exact ⟨v :: vs, .cons hv hvs⟩

/-- Set literals whose members cover each other make equal sets. -/
theorem mirrors_set_alike (h : ∀ e ∈ es, ∃ e' ∈ es', o.Mirrors Value.Alike e e')
    (h' : ∀ e' ∈ es', ∃ e ∈ es, o.Mirrors Value.Alike e e') :
    o.Mirrors Value.Alike (.set es) (.set es') := by
  refine mirrors_set h h' fun x hx => ?_
  obtain ⟨vs, hvs, hx⟩ := denote_set_eq_ok_iff.mp hx
  have hdenote : ∀ e' ∈ es', ∃ v ∈ vs, ∃ w, o.denote e' = .ok w ∧ v.Alike w := by
    intro e' he'
    obtain ⟨e, he, hmirrors⟩ := h' e' he'
    obtain ⟨v, hv, hev⟩ := exists_right_of_forall₂ hvs he
    exact ⟨v, hv, hmirrors.value v hev⟩
  obtain ⟨ws, hws⟩ := exists_denote_of_forall fun e' he' =>
    let ⟨_, _, w, hw, _⟩ := hdenote e' he'
    ⟨w, hw⟩
  have hvw : ∀ v ∈ vs, ∃ w ∈ ws, v.Alike w := by
    intro v hv
    obtain ⟨e, he, hev⟩ := exists_left_of_forall₂ hvs hv
    obtain ⟨e', he', hmirrors⟩ := h e he
    obtain ⟨w, hw, hvw⟩ := hmirrors.value v hev
    obtain ⟨w', hw', hew'⟩ := exists_right_of_forall₂ hws he'
    rw [hw] at hew'
    cases hew'
    exact ⟨w, hw', hvw⟩
  have hwv : ∀ w ∈ ws, ∃ v ∈ vs, v.Alike w := by
    intro w hw
    obtain ⟨e', he', hew⟩ := exists_left_of_forall₂ hws hw
    obtain ⟨v, hv, w', hw', hvw⟩ := hdenote e' he'
    rw [hew] at hw'
    cases hw'
    exact ⟨v, hv, hvw⟩
  obtain ⟨y, hy, hxy⟩ := Value.ofMembers_alike hvw hwv hx
  exact ⟨y, denote_set_eq_ok_iff.mpr ⟨ws, hws, hy⟩, hxy⟩

end Oracle

namespace Expr

theorem parameters_eq_of_sameTemplate {t t' : FunctionTemplate Expr}
    (h : (t == t') = true) : t.parameters = t'.parameters := by
  obtain ⟨⟨-, hrequired, -⟩, hoptional⟩ := sameTemplate_iff.mp h
  have hfirst : t.optional.map (·.1) = t'.optional.map (·.1) :=
    List.forall₂_eq_eq_eq ▸ List.forall₂_map_left_iff.mpr
      (List.forall₂_map_right_iff.mpr (hoptional.imp fun _ _ hxy => hxy.1))
  rw [FunctionTemplate.parameters, FunctionTemplate.parameters, hrequired, hfirst]

end Expr

section Trees

open Criteria.Expr

/-- Where a tree has a value, an equal tree has an equal value. -/
theorem Assignment.Respectful.mirrors_of_same {a : Assignment} (ha : a.Respectful)
    {e e' : Expr} (he : e.Built) (he' : e'.Built) (h : same e e' = true) :
    a.oracle.Mirrors Value.Alike e e' := by
  induction he generalizing e' with
  | @node e hhere hparts ih =>
      have hset := h
      rw [same_iff_matches] at h
      have halike {s : Value} (hs : s.isSet = false) : s.Alike s :=
        .of_not_set hs (Value.beq_refl_of_not_set hs)
      cases h with
      | string s =>
          refine Oracle.mirrors_leaf rfl rfl rfl rfl fun v hv => ⟨v, hv, ?_⟩
          cases hv
          exact halike rfl
      | @number d d' h =>
          refine Oracle.mirrors_leaf rfl rfl rfl rfl fun v hv => ⟨.number d', rfl, ?_⟩
          cases hv
          exact .of_not_set rfl (Value.number_beq_iff.mpr ⟨d', rfl, h⟩)
      | set length cover =>
          refine Oracle.mirrors_set_alike ?_ ?_
          · intro m hm
            obtain ⟨m', hm', hsame⟩ := cover m hm
            have hmm' : same m m' = true := same_symm (he'.part hm') (hparts m hm) hsame
            exact ⟨m', hm', ih m hm (he'.part hm') hmm'⟩
          · intro m' hm'
            obtain ⟨m, hm, hmm'⟩ := cover_of_same (.node hhere hparts) he' hset m' hm'
            exact ⟨m, hm, ih m hm (he'.part hm') hmm'⟩
      | name scope name =>
          exact Oracle.mirrors_leaf rfl rfl rfl rfl fun v hv => by cases hv
      | request scope name h =>
          exact Oracle.mirrors_request (forall₂_imp_of_mem h fun x hx y hy =>
            ih x hx (he'.part hy))
      | «variable» path template =>
          refine Oracle.mirrors_leaf rfl rfl rfl rfl fun v hv => ⟨v, hv, ?_⟩
          exact (ha.wellFormed_value (Oracle.denote_variable_eq_ok_iff.mp hv).1).alike
      | call path ht h =>
          obtain ⟨⟨hname, -, hreturns⟩, -⟩ := sameTemplate_iff.mp ht
          refine Oracle.mirrors_call (parameters_eq_of_sameTemplate ht) hreturns
            congruence_alike.kind_eq (fun vs ws hvs v hv => ha.result_congr hname hvs hv) ?_
          exact forall₂_imp_of_mem h fun x hx y hy =>
            ih x (argument_mem_parts hx) (he'.part (argument_mem_parts hy))
      | not h =>
          exact Oracle.mirrors_not congruence_alike
            (ih _ (operand_mem_parts _) (he'.part (operand_mem_parts _)) h)
      | binary op hl hr =>
          exact Oracle.mirrors_binary congruence_alike
            (ih _ (left_mem_parts op _ _) (he'.part (left_mem_parts op _ _)) hl)
            (ih _ (right_mem_parts op _ _) (he'.part (right_mem_parts op _ _)) hr)

/-- Set literals that cover each other make equal sets. -/
theorem Assignment.Respectful.mirrors_set_of_covered {a : Assignment}
    (ha : a.Respectful) {xs ys : List Expr} (hxs : ∀ x ∈ xs, x.Built)
    (hys : ∀ y ∈ ys, y.Built) (h : Covered xs ys) (h' : Covered ys xs) :
    a.oracle.Mirrors Value.Alike (set xs) (set ys) := by
  refine Oracle.mirrors_set_alike ?_ ?_
  · intro x hx
    obtain ⟨y, hy, hxy⟩ := h x hx
    exact ⟨y, hy, ha.mirrors_of_same (hxs x hx) (hys y hy) hxy⟩
  · intro y hy
    obtain ⟨x, hx, hyx⟩ := h' y hy
    exact ⟨x, hx, ha.mirrors_of_same (hxs x hx) (hys y hy)
      (same_symm (hys y hy) (hxs x hx) hyx)⟩

/-- Nothing respects equality as easily as an assignment of nothing. -/
theorem Assignment.respectful_empty : Assignment.empty.Respectful where
  wellFormed _ _ h := by cases h
  congr _ _ h := by cases h

/-- The check does not tell equal trees apart. -/
theorem Expr.check_of_same {x y : Expr} (hx : x.Built) (hy : y.Built)
    (h : same x y = true) (hcheck : x.check = .ok ()) : y.check = .ok () :=
  (Assignment.respectful_empty.mirrors_of_same hx hy h).check hcheck

/-- When the members that are kept pass the check, all that they are collected from do. -/
theorem Expr.check_of_collect {us kept : List Expr} (hus : ∀ u ∈ us, u.Built)
    (hkept : Distinct.collect isSet us = .ok kept) (hcheck : ∀ k ∈ kept, k.check = .ok ()) :
    ∀ u ∈ us, u.check = .ok () := by
  intro u hu
  obtain ⟨k, hk, huk⟩ := (covered_collect hus hkept).2 u hu
  have hkb := hus k ((Distinct.collect_sublist isSet hkept).subset hk)
  exact check_of_same hkb (hus u hu) (same_symm (hus u hu) hkb huk) (hcheck k hk)

/-- A set literal is bound by binding its members and collecting them. -/
theorem Expr.bind_set {d : Draft} {space : Namespace} (hd : d.register = .ok space)
    (hbuilt : d.SymbolsBuilt) {locale : Option String} {members : List Expr} {u : Expr}
    (hmembers : (set members).Built) (h : (set members).bind space locale = .ok u) :
    ∃ us, List.Forall₂ (fun m b => m.bind space locale = .ok b) members us ∧
      (∀ b ∈ us, b.Built) ∧ ofMembers us = .ok u := by
  obtain ⟨hu, hcheck⟩ := (bind_eq_ok_iff_instantiate hmembers).mp h
  cases rebuilt_of_instantiate hu with
  | @set _ us kept hall hkept =>
      have hus : ∀ b ∈ us, b.Built := built_of_forall₂ hall fun m hm b =>
        built_instantiate (fun _ _ => built_of_resolve hd hbuilt) (hmembers.part hm)
      have hchecked := check_of_collect hus hkept (check_eq_ok_iff.mp hcheck).1
      refine ⟨us, ?_, hus, ofMembers_eq_ok_iff.mpr ⟨kept, hkept, rfl⟩⟩
      refine forall₂_imp_of_mem hall fun m hm b hb hmb => ?_
      exact (bind_eq_ok_iff_instantiate (hmembers.part hm)).mpr ⟨hmb, hchecked b hb⟩

end Trees

section Values

open Criteria.Expr

variable {σ : Type}

/-- Where one of two trees has a value in a context, the other one has an equal value. -/
structure EqualValues (limits : Limits) (ctx : Context σ) (x y : Expr) : Prop where
  right : ∀ s v s', evaluateValue limits ctx x s = .ok v s' →
    ∃ w t', evaluateValue limits ctx y s = .ok w t' ∧ (v == w) = true
  left : ∀ s w t', evaluateValue limits ctx y s = .ok w t' →
    ∃ v s', evaluateValue limits ctx x s = .ok v s' ∧ (v == w) = true

variable {limits : Limits} {a : Assignment} {x y : Expr}

theorem equalValues_of_mirrors (h : a.oracle.Mirrors Value.Alike x y)
    (h' : a.oracle.Mirrors Value.Alike y x) :
    EqualValues limits (a.context : Context σ) x y where
  right s v s' hv := by
    obtain ⟨w, t', hw, hvw⟩ := evaluateValue_of_mirrors a.follows h hv s
    exact ⟨w, t', hw, hvw.beq⟩
  left s w t' hw := by
    obtain ⟨v, s', hv, hwv⟩ := evaluateValue_of_mirrors a.follows h' hw s
    exact ⟨v, s', hv, hwv.symm.beq⟩

variable (ha : a.Respectful)
include ha

/-- Collecting the members of a literal does not change its value. -/
theorem Assignment.Respectful.equalValues_collect {members kept : List Expr}
    (hmembers : ∀ m ∈ members, m.Built)
    (h : Distinct.collect isSet members = .ok kept) :
    EqualValues limits (a.context : Context σ) (set members) (set kept) := by
  obtain ⟨hkept, hcovered⟩ := covered_collect hmembers h
  have hk : ∀ k ∈ kept, k.Built := fun k hk =>
    hmembers k ((Distinct.collect_sublist isSet h).subset hk)
  exact equalValues_of_mirrors (ha.mirrors_set_of_covered hmembers hk hcovered hkept)
    (ha.mirrors_set_of_covered hk hmembers hkept hcovered)

/-- In an assignment that respects equality, equal trees have equal values within every
limit.  A literal has the same value as the list of members that it is built from, and as
the list of bound members that it is bound to, before equal ones are dropped. -/
theorem equalValues_of_beq (limits : Limits) :
    (∀ x y : Expr, x.Built → y.Built → (x == y) = true →
      EqualValues limits (a.context : Context σ) x y) ∧
    (∀ members u, (∀ m ∈ members, m.Built) → ofMembers members = .ok u →
      EqualValues limits (a.context : Context σ) (set members) u) ∧
    ∀ (d : Draft) space locale members u, d.register = .ok space → d.SymbolsBuilt →
      (set members).Built → (set members).bind space locale = .ok u →
        ∃ us, List.Forall₂ (fun m b => m.bind space locale = .ok b) members us ∧
          ofMembers us = .ok u ∧
            EqualValues limits (a.context : Context σ) (set us) u := by
  have hset : ∀ members u, (∀ m ∈ members, m.Built) → ofMembers members = .ok u →
      EqualValues limits (a.context : Context σ) (set members) u := by
    intro members u hmembers hu
    obtain ⟨kept, hkept, rfl⟩ := ofMembers_eq_ok_iff.mp hu
    exact ha.equalValues_collect hmembers hkept
  refine ⟨?_, hset, ?_⟩
  · intro x y hx hy h
    exact equalValues_of_mirrors (ha.mirrors_of_same hx hy h)
      (ha.mirrors_of_same hy hx (same_symm hx hy h))
  · intro d space locale members u hd hbuilt hmembers h
    obtain ⟨us, hus, hbuilt, hu⟩ := bind_set hd hbuilt hmembers h
    exact ⟨us, hus, hu, hset us u hbuilt hu⟩

omit ha in
/-- A function that returns its argument is given the same set twice, written in two ways;
and a literal names one variable twice, once as a placeholder. -/
theorem equalValues_of_beq_twice :
    let first : ValueFunction := fun vs =>
      match vs with
      | [v] => .ok v
      | _ => .error (.undefinedFunction "first")
    let a := (Assignment.empty.setVariable "limit" (.number ⟨70, 1⟩)).setFunction "first" first
    let limit : VariableTemplate := ⟨⟨["limit"]⟩, some .number⟩
    let template : FunctionTemplate Expr := ⟨⟨["first"]⟩, [⟨"value", none⟩], [], none⟩
    let x : Expr := .call ⟨["first"]⟩ template [.set [.number ⟨1, 0⟩, .string "a"]]
    let y : Expr := .call ⟨["first"]⟩ template [.set [.string "a", .number ⟨10, 1⟩]]
    let d : Draft := Draft.root.bind (Object.ofSymbol (.variable limit))
    let members : List Expr :=
      [.placeholder ⟨[], ⟨["limit"]⟩, none⟩, .variable ⟨["limit"]⟩ limit]
    let ctx : Context Unit := a.context
    a.Respectful ∧ (x == y) = true ∧
      evaluateValue {} ctx x () = .ok (.set [.number ⟨1, 0⟩, .string "a"]) () ∧
      (∃ w t', evaluateValue {} ctx y () = .ok w t' ∧
        (.set [.number ⟨1, 0⟩, .string "a"] == w) = true) ∧
      EqualValues {} ctx (.set [.number ⟨1, 0⟩, .number ⟨10, 1⟩]) (.set [.number ⟨1, 0⟩]) ∧
      ∃ space u, d.register = .ok space ∧ (Expr.set members).bind space none = .ok u ∧
        ∃ us, List.Forall₂ (fun m b => m.bind space none = .ok b) members us ∧
          EqualValues {} ctx (.set us) u := by
  intro first a limit template x y d members ctx
  have ha : a.Respectful := by
    refine ⟨?_, ?_⟩
    · intro name v hv
      have hv : (Assignment.empty.setVariable "limit" (.number ⟨70, 1⟩)).valueOf? name =
          some v := hv
      rw [Assignment.valueOf?_setVariable] at hv
      split at hv <;> cases hv
      trivial
    · intro name f hf vs ws h
      have hf : [("first", first)].lookup name = some f := hf
      rw [List.lookup_cons] at hf
      split at hf <;> cases hf
      cases h with
      | nil => trivial
      | cons hv h =>
          cases h with
          | nil => exact hv
          | cons _ _ => trivial
  have hpair (m n : Expr) (hm : m.parts = []) (hn : n.parts = []) :
      ∀ p ∈ [m, n], p.Built :=
    List.forall_mem_cons.mpr
      ⟨built_leaf hm, List.forall_mem_singleton.mpr (built_leaf hn)⟩
  have hx : x.Built := Built.node trivial (List.forall_mem_singleton.mpr
    (built_ofMembers (hpair (.number ⟨1, 0⟩) (.string "a") rfl rfl) rfl))
  have hy : y.Built := Built.node trivial (List.forall_mem_singleton.mpr
    (built_ofMembers (hpair (.string "a") (.number ⟨10, 1⟩) rfl rfl) rfl))
  have hmembers : (Expr.set members).Built :=
    built_ofMembers (hpair (.placeholder ⟨[], ⟨["limit"]⟩, none⟩)
      (.variable ⟨["limit"]⟩ limit) rfl rfl) rfl
  have hbuilt : d.SymbolsBuilt := by
    intro route o hr
    cases hr with
    | object ho =>
        rw [List.mem_singleton.mp ho]
        trivial
    | deeper hs _ => cases hs
  have hbind : ∃ space u, d.register = .ok space ∧
      (Expr.set members).bind space none = .ok u := by
    simp only [d, members, limit]
    exact ⟨_, _, rfl, rfl⟩
  obtain ⟨hequal, hliteral, hbound⟩ := equalValues_of_beq (σ := Unit) ha {}
  have hvalue : evaluateValue {} ctx x () =
      .ok (.set [.number ⟨1, 0⟩, .string "a"]) () := rfl
  obtain ⟨space, u, hd, hu⟩ := hbind
  obtain ⟨us, hus, -, hvalues⟩ := hbound d space none members u hd hbuilt hmembers hu
  exact ⟨ha, rfl, hvalue, (hequal x y hx hy rfl).right () _ _ hvalue,
    hliteral _ _ (hpair _ _ rfl rfl) rfl, space, u, hd, hu, us, hus, hvalues⟩

end Values

end Criteria
