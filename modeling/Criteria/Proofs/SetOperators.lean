import Criteria.Proofs.Denotation
import Criteria.Proofs.Provenance

/-!
# Operators on sets

Equality of two sets compares their lengths and goes through the members of the left one
only.  Among well-formed sets this is enough: they are equal exactly when each of them is a
subset of the other, so that the order of the operands does not matter.  Being a subset is
reflexive and transitive, and a value is a member of a set when the set of this one value is
a subset of it.

The operators work on trees.  In a context that answers alike in every state, a tree that
has a value at all has it in every state and within every limit that reaches down to its
leaves, so an operation between two such trees comes out as the operation on their values.

**Results.**
* `Value.beq_eq_enclosed`: equality of well-formed sets is mutual inclusion.
* `Oracle.agrees_of_denote`: the value of a tree is of the kind that is known in advance.
* `decides_binary_iff`: an operation on trees yields what it yields on their values.
* `decides_set_laws`: equality, inclusion and membership of trees that have sets for values.
-/

namespace Criteria

open Outcome

namespace Value

variable {members others more : List Value}

theorem all_contains_iff :
    members.all (set others).contains = true ↔
      ∀ m ∈ members, ∃ o ∈ others, (o == m) = true := by
  simp [List.all_eq_true, contains]

/-- Well-formed sets are equal exactly when they lie in each other. -/
theorem beq_eq_enclosed (hmembers : (set members).WellFormed)
    (hothers : (set others).WellFormed) :
    (set members == set others) =
      (members.all (set others).contains && others.all (set members).contains) := by
  rw [Bool.eq_iff_iff, Bool.and_eq_true, all_contains_iff, all_contains_iff]
  constructor
  · intro h
    obtain ⟨-, hcover, hcover'⟩ := alike_set_iff.mp ⟨hmembers, hothers, h⟩
    refine ⟨?_, hcover'⟩
    intro m hm
    obtain ⟨o, ho, hmo⟩ := hcover m hm
    exact ⟨o, ho, beq_symm_of_not_set (hmembers.2 m hm) hmo⟩
  · rintro ⟨hcover, hcover'⟩
    refine (alike_set_iff.mpr ⟨⟨hmembers, hothers⟩, ?_, hcover'⟩).beq
    intro m hm
    obtain ⟨o, ho, hom⟩ := hcover m hm
    exact ⟨o, ho, beq_symm_of_not_set (hothers.2 o ho) hom⟩

theorem enclosed_refl (hmembers : (set members).WellFormed) :
    members.all (set members).contains = true := by
  rw [all_contains_iff]
  intro m hm
  exact ⟨m, hm, beq_refl_of_not_set (hmembers.2 m hm)⟩

theorem enclosed_trans (hmore : (set more).WellFormed)
    (h : members.all (set others).contains = true)
    (h' : others.all (set more).contains = true) :
    members.all (set more).contains = true := by
  rw [all_contains_iff] at h h' ⊢
  intro m hm
  obtain ⟨o, ho, hom⟩ := h m hm
  obtain ⟨n, hn, hno⟩ := h' o ho
  exact ⟨n, hn, beq_trans_of_not_set (hmore.2 n hn) hno hom⟩

theorem ofMembers_singleton {v : Value} (hv : v.isSet = false) :
    ofMembers [v] = .ok (set [v]) :=
  ofMembers_eq_ok_iff.mpr ⟨[v], Distinct.collect_of_apart (by simpa using hv)
    (List.pairwise_singleton _ v), rfl⟩

end Value

namespace Oracle

open Evaluation

variable {o : Oracle} {v : Value}

/-- What a tree denotes agrees with what is known of its kind in advance. -/
theorem agrees_of_denote {e : Expr} (h : o.denote e = .ok v) :
    Kind.Agrees e.staticKind v.kind := by
  match e with
  | .constant (.string text) =>
      cases h
      exact .inr rfl
  | .constant (.number d) =>
      cases h
      exact .inr rfl
  | .constant (.set members) =>
      obtain ⟨vs, -, hv⟩ := denote_set_eq_ok_iff.mp h
      obtain ⟨kept, -, rfl⟩ := Value.ofMembers_eq_ok_iff.mp hv
      exact .inr rfl
  | .placeholder p => exact .inl rfl
  | .variable path template => exact (denote_variable_eq_ok_iff.mp h).2
  | .call path template arguments =>
      obtain ⟨vs, -, -, hkind⟩ := denote_call_eq_ok_iff.mp h
      exact hkind
  | .not operand =>
      obtain ⟨b, -, rfl⟩ := denote_not_eq_ok_iff.mp h
      exact .inr rfl
  | .binary op left right =>
      obtain ⟨l, r, -, -, hv⟩ := denote_binary_eq_ok_iff.mp h
      rw [kind_of_operation hv]
      exact .inr rfl

end Oracle

namespace Evaluation

variable {σ : Type} {limits : Limits} {ctx : Context σ} {o : Oracle}

/-- A tree has a value in a context, within some limit and from some state. -/
def HasValue (ctx : Context σ) (e : Expr) (v : Value) : Prop :=
  ∃ limits s s', evaluateValue limits ctx e s = .ok v s'

/-- Within the limit and from every state, a tree evaluates to a truth value. -/
def Decides (limits : Limits) (ctx : Context σ) (e : Expr) (b : Bool) : Prop :=
  ∀ s, ∃ s', evaluateValue limits ctx e s = .ok (.boolean b) s'

theorem HasValue.wellFormed (hgives : ctx.GivesWellFormed) {e : Expr} {v : Value}
    (h : HasValue ctx e v) : v.WellFormed := by
  obtain ⟨limits, s, s', hv⟩ := h
  exact wellFormed_of_evaluateValue hgives hv

section Operations

variable {e left right : Expr} {v l r : Value} {op : BinaryOp} {b : Bool}

/-- A tree that has a value within some limit passes the check and denotes the value. -/
theorem hasValue_iff (h : ctx.Follows o) (s : σ) :
    HasValue ctx e v ↔ e.check = .ok () ∧ o.denote e = .ok v := by
  constructor
  · rintro ⟨limits, s₁, s₂, hv⟩
    obtain ⟨⟨hcheck, -⟩, hdenote⟩ := (evaluateValue_eq_ok_iff h s₁).mp ⟨s₂, hv⟩
    exact ⟨hcheck, hdenote⟩
  · rintro ⟨hcheck, hdenote⟩
    have hwithin : e.height ≤ (⟨e.height⟩ : Limits).maxDepth := Nat.le_refl _
    obtain ⟨s', hv⟩ := (evaluateValue_eq_ok_iff h s).mpr ⟨⟨hcheck, hwithin⟩, hdenote⟩
    exact ⟨⟨e.height⟩, s, s', hv⟩

theorem decides_iff (h : ctx.Follows o) (s : σ) :
    Decides limits ctx e b ↔
      (e.check = .ok () ∧ e.height ≤ limits.maxDepth) ∧ o.denote e = .ok (.boolean b) := by
  constructor
  · intro hb
    exact (evaluateValue_eq_ok_iff h s).mp (hb s)
  · intro hb s'
    exact (evaluateValue_eq_ok_iff h s').mpr hb

/-- An operation on trees yields what it yields on their values, provided that its rule
accepts the kinds of the values and that the limit reaches one level further than the
operands do. -/
theorem decides_binary_iff (hdet : ctx.Deterministic) (hl : HasValue ctx left l)
    (hr : HasValue ctx right r)
    (hrule : op.checkKinds (some l.kind) (some r.kind) = .ok ()) :
    Decides limits ctx (.binary op left right) b ↔
      max left.height right.height < limits.maxDepth ∧
        Operation.apply (.binary op left right) op l r = .ok b := by
  have ⟨_, s, _⟩ := hl
  have h := hdet.follows s
  obtain ⟨hlcheck, hldenote⟩ := (hasValue_iff h s).mp hl
  obtain ⟨hrcheck, hrdenote⟩ := (hasValue_iff h s).mp hr
  have hcheck : (Expr.binary op left right).check = .ok () := by
    -- The rule accepts the kinds of the values, so it accepts what is known of them before.
    have hnode := checkKinds_mono (Oracle.agrees_of_denote hldenote)
      (Oracle.agrees_of_denote hrdenote) hrule
    refine check_eq_ok_iff.mpr ⟨?_, mapError_eq_ok_iff.mpr hnode⟩
    simp [Expr.children, hlcheck, hrcheck]
  have hdenote : (ctx.oracleAt s).denote (.binary op left right) = .ok (.boolean b) ↔
      Operation.apply (.binary op left right) op l r = .ok b := by
    rw [Oracle.denote, hldenote, hrdenote]
    show operation _ op l r = .ok (.boolean b) ↔ _
    rw [operation, hrule, mapError_ok]
    show (Operation.apply _ op l r >>= fun b => pure (Value.boolean b)) = _ ↔ _
    rw [bind_eq_ok_iff]
    simp [pure, Except.pure]
  rw [decides_iff h s, hdenote, Expr.height, Nat.succ_le_iff]
  simp only [hcheck, true_and]

end Operations

section Sets

variable {a b x : Expr} {as bs : List Value} {w : Value} {p : Bool}

theorem decides_equal_iff (hdet : ctx.Deterministic) (ha : HasValue ctx a (.set as))
    (hb : HasValue ctx b (.set bs)) :
    Decides limits ctx (.binary .equal a b) p ↔
      max a.height b.height < limits.maxDepth ∧ (Value.set as == .set bs) = p := by
  rw [decides_binary_iff hdet ha hb rfl, Operation.apply_equal, Except.ok.injEq]

theorem decides_notEqual_iff (hdet : ctx.Deterministic) (ha : HasValue ctx a (.set as))
    (hb : HasValue ctx b (.set bs)) :
    Decides limits ctx (.binary .notEqual a b) p ↔
      max a.height b.height < limits.maxDepth ∧ (!(Value.set as == .set bs)) = p := by
  rw [decides_binary_iff hdet ha hb rfl, Operation.apply, Except.ok.injEq]

theorem decides_isSubset_iff (hdet : ctx.Deterministic) (ha : HasValue ctx a (.set as))
    (hb : HasValue ctx b (.set bs)) :
    Decides limits ctx (.binary .isSubset a b) p ↔
      max a.height b.height < limits.maxDepth ∧
        as.all (Value.set bs).contains = p := by
  rw [decides_binary_iff hdet ha hb rfl, Operation.apply, Operation.enclose,
    Except.ok.injEq]

theorem decides_belongsTo_iff (hdet : ctx.Deterministic) (hx : HasValue ctx x w)
    (hw : w.isSet = false) (ha : HasValue ctx a (.set as)) :
    Decides limits ctx (.binary .belongsTo x a) p ↔
      max x.height a.height < limits.maxDepth ∧ (Value.set as).contains w = p := by
  have hkind : w.kind ≠ .set := by
    rw [← Bool.not_eq_true, isSet_eq_true_iff] at hw
    exact hw
  have hrule : BinaryOp.belongsTo.checkKinds (some w.kind) (some .set) = .ok () :=
    check_bind_eq_ok_iff.mpr ⟨expectElement_some.mpr hkind, rfl⟩
  have hset : (Value.set as).isSet = true := rfl
  rw [decides_binary_iff hdet hx ha hrule, Operation.apply, Operation.belong_eq_ok_iff]
  simp only [hw, hset, true_and]

/-- The set literal of one tree whose value is no set. -/
theorem hasValue_singleton (hdet : ctx.Deterministic) (hx : HasValue ctx x w)
    (hw : w.isSet = false) :
    Expr.ofMembers [x] = .ok (.set [x]) ∧ HasValue ctx (.set [x]) (.set [w]) := by
  have ⟨_, s, _⟩ := hx
  have h := hdet.follows s
  obtain ⟨hcheck, hdenote⟩ := (hasValue_iff h s).mp hx
  have hset : x.isSet = false := by
    match x with
    | .constant (.set members) =>
        obtain ⟨vs, -, hv⟩ := Oracle.denote_set_eq_ok_iff.mp hdenote
        obtain ⟨kept, -, rfl⟩ := Value.ofMembers_eq_ok_iff.mp hv
        cases hw
    | .constant (.string _) => rfl
    | .constant (.number _) => rfl
    | .placeholder _ => rfl
    | .variable _ _ => rfl
    | .call _ _ _ => rfl
    | .not _ => rfl
    | .binary _ _ _ => rfl
  refine ⟨?_, (hasValue_iff h s).mpr ⟨?_, ?_⟩⟩
  · rw [Expr.ofMembers, Distinct.collect_of_apart (by simpa using hset)
      (List.pairwise_singleton _ x)]
  · exact check_eq_ok_iff.mpr ⟨by simpa [Expr.children] using hcheck, rfl⟩
  · exact Oracle.denote_set_eq_ok_iff.mpr
      ⟨[w], .cons hdenote .nil, Value.ofMembers_singleton hw⟩

end Sets

section Laws

variable {a b c x : Expr} {as bs cs : List Value} {w : Value}

/-- Inclusions and equations between trees that have sets for values do not fail, and an
equation holds, in either order of its operands, exactly when both inclusions do. -/
theorem exists_decides_equal (hdet : ctx.Deterministic) (hgives : ctx.GivesWellFormed)
    (ha : HasValue ctx a (.set as)) (hb : HasValue ctx b (.set bs))
    (hmax : max a.height b.height < limits.maxDepth) :
    ∃ p q,
      Decides limits ctx (.binary .isSubset a b) p ∧
      Decides limits ctx (.binary .isSubset b a) q ∧
      Decides limits ctx (.binary .equal a b) (p && q) ∧
      Decides limits ctx (.binary .equal b a) (p && q) ∧
      Decides limits ctx (.binary .notEqual a b) (!(p && q)) ∧
      Decides limits ctx (.binary .notEqual b a) (!(p && q)) := by
  have has := ha.wellFormed hgives
  have hbs := hb.wellFormed hgives
  have hequal := Value.beq_eq_enclosed has hbs
  have hswap : (Value.set bs == .set as) = (Value.set as == .set bs) := by
    rw [hequal, Value.beq_eq_enclosed hbs has, Bool.and_comm]
  have hmax' : max b.height a.height < limits.maxDepth := by rwa [Nat.max_comm]
  refine ⟨as.all (Value.set bs).contains, bs.all (Value.set as).contains, ?_⟩
  rw [← hequal]
  exact ⟨(decides_isSubset_iff hdet ha hb).mpr ⟨hmax, rfl⟩,
    (decides_isSubset_iff hdet hb ha).mpr ⟨hmax', rfl⟩,
    (decides_equal_iff hdet ha hb).mpr ⟨hmax, rfl⟩,
    (decides_equal_iff hdet hb ha).mpr ⟨hmax', hswap⟩,
    (decides_notEqual_iff hdet ha hb).mpr ⟨hmax, rfl⟩,
    (decides_notEqual_iff hdet hb ha).mpr ⟨hmax', congrArg not hswap⟩⟩

theorem decides_isSubset_self (hdet : ctx.Deterministic) (hgives : ctx.GivesWellFormed)
    (ha : HasValue ctx a (.set as)) (hmax : a.height < limits.maxDepth) :
    Decides limits ctx (.binary .isSubset a a) true := by
  rw [decides_isSubset_iff hdet ha ha, Nat.max_self]
  exact ⟨hmax, Value.enclosed_refl (ha.wellFormed hgives)⟩

theorem decides_isSubset_trans (hdet : ctx.Deterministic) (hgives : ctx.GivesWellFormed)
    (ha : HasValue ctx a (.set as)) (hb : HasValue ctx b (.set bs))
    (hc : HasValue ctx c (.set cs)) (hab : Decides limits ctx (.binary .isSubset a b) true)
    (hbc : Decides limits ctx (.binary .isSubset b c) true) :
    Decides limits ctx (.binary .isSubset a c) true := by
  obtain ⟨hab, habs⟩ := (decides_isSubset_iff hdet ha hb).mp hab
  obtain ⟨hbc, hbcs⟩ := (decides_isSubset_iff hdet hb hc).mp hbc
  refine (decides_isSubset_iff hdet ha hc).mpr ⟨by omega, ?_⟩
  exact Value.enclosed_trans (hc.wellFormed hgives) habs hbcs

/-- Whether a value is a member of a set comes out as whether its singleton is a subset. -/
theorem exists_decides_belongsTo (hdet : ctx.Deterministic) (ha : HasValue ctx a (.set as))
    (hx : HasValue ctx x w) (hw : w.isSet = false)
    (hmax : max (x.height + 1) a.height < limits.maxDepth) :
    ∃ p,
      Decides limits ctx (.binary .belongsTo x a) p ∧
      Decides limits ctx (.binary .isSubset (.set [x]) a) p := by
  obtain ⟨-, hsingle⟩ := hasValue_singleton hdet hx hw
  refine ⟨(Value.set as).contains w, ?_, ?_⟩
  · exact (decides_belongsTo_iff hdet hx hw ha).mpr ⟨by omega, rfl⟩
  · refine (decides_isSubset_iff hdet hsingle ha).mpr ⟨?_, by simp⟩
    simpa [Expr.height, Expr.heightAll] using hmax

/-- The laws of the operators on sets, for trees that have sets for values and for one tree
that has another value: equality is mutual inclusion and does not depend on the order of the
operands, inclusion is reflexive and transitive, and membership is inclusion of the
singleton.  None of these operations fails. -/
theorem decides_set_laws (hdet : ctx.Deterministic) (hgives : ctx.GivesWellFormed)
    {a b c x : Expr} {as bs cs : List Value} {w : Value} (ha : HasValue ctx a (.set as))
    (hb : HasValue ctx b (.set bs)) (hc : HasValue ctx c (.set cs)) (hx : HasValue ctx x w)
    (hw : w.isSet = false) (limits : Limits) :
    (max a.height b.height < limits.maxDepth →
      ∃ p q,
        Decides limits ctx (.binary .isSubset a b) p ∧
        Decides limits ctx (.binary .isSubset b a) q ∧
        Decides limits ctx (.binary .equal a b) (p && q) ∧
        Decides limits ctx (.binary .equal b a) (p && q) ∧
        Decides limits ctx (.binary .notEqual a b) (!(p && q)) ∧
        Decides limits ctx (.binary .notEqual b a) (!(p && q))) ∧
    (a.height < limits.maxDepth → Decides limits ctx (.binary .isSubset a a) true) ∧
    (Decides limits ctx (.binary .isSubset a b) true →
      Decides limits ctx (.binary .isSubset b c) true →
      Decides limits ctx (.binary .isSubset a c) true) ∧
    Expr.ofMembers [x] = .ok (.set [x]) ∧
    (max (x.height + 1) a.height < limits.maxDepth →
      ∃ p,
        Decides limits ctx (.binary .belongsTo x a) p ∧
        Decides limits ctx (.binary .isSubset (.set [x]) a) p) := by
  refine ⟨?_, ?_, ?_, (hasValue_singleton hdet hx hw).1, ?_⟩
  · exact exists_decides_equal hdet hgives ha hb
  · exact decides_isSubset_self hdet hgives ha
  · exact decides_isSubset_trans hdet hgives ha hb hc
  · exact exists_decides_belongsTo hdet ha hx hw

/-- A variable, a call and a literal, with a context that counts what it is asked. -/
theorem decides_set_laws_counted :
    let tags : VariableTemplate := ⟨⟨["tags"]⟩, none⟩
    let known : FunctionTemplate Expr := ⟨⟨["known"]⟩, [], [], some .set⟩
    let one : Value := .number ⟨1, 0⟩
    let ctx : Context Nat :=
      ⟨fun _ n => .ok (.set [one, .string "a"]) (n + 1),
        fun _ _ n => .ok (.set [.string "a", one]) (n + 1), fun _ _ n => n⟩
    let a : Expr := .variable ⟨["tags"]⟩ tags
    let b : Expr := .call ⟨["known"]⟩ known []
    let c : Expr := .set [.string "a", .string "b", .number ⟨10, 1⟩]
    let x : Expr := .string "b"
    Decides {} ctx (.binary .isSubset a a) true ∧
    Decides {} ctx (.binary .isSubset a c) true ∧
    (∃ p, Decides {} ctx (.binary .equal a b) p ∧ Decides {} ctx (.binary .equal b a) p) ∧
    ∃ p, Decides {} ctx (.binary .belongsTo x a) p ∧
      Decides {} ctx (.binary .isSubset (.set [x]) a) p := by
  intro tags known one ctx a b c x
  have hdet : ctx.Deterministic := ⟨fun _ _ _ => rfl, fun _ _ _ _ => rfl⟩
  have hgives : ctx.GivesWellFormed := by
    constructor
    · intro template s v s' h
      cases h
      exact Value.wellFormed_ofMembers (show Value.ofMembers [one, .string "a"] = .ok _ from rfl)
    · intro template values s v s' h
      cases h
      exact Value.wellFormed_ofMembers (show Value.ofMembers [.string "a", one] = .ok _ from rfl)
  have ha : HasValue ctx a (.set [one, .string "a"]) := ⟨{}, 0, 1, rfl⟩
  have hb : HasValue ctx b (.set [.string "a", one]) := ⟨{}, 0, 1, rfl⟩
  have hc : HasValue ctx c (.set [.string "a", .string "b", .number ⟨10, 1⟩]) :=
    ⟨{}, 0, 0, rfl⟩
  have hx : HasValue ctx x (.string "b") := ⟨{}, 0, 0, rfl⟩
  obtain ⟨hequal, hrefl, htrans, -, hmember⟩ :=
    decides_set_laws hdet hgives ha hb hc hx rfl {}
  obtain ⟨p, q, hab, hba, heq, heq', -, -⟩ := hequal (by decide)
  have hab : Decides {} ctx (.binary .isSubset a b) true :=
    (decides_isSubset_iff hdet ha hb).mpr ⟨by decide, rfl⟩
  have hbc : Decides {} ctx (.binary .isSubset b c) true :=
    (decides_isSubset_iff hdet hb hc).mpr ⟨by decide, rfl⟩
  exact ⟨hrefl (by decide), htrans hab hbc, ⟨p && q, heq, heq'⟩, hmember (by decide)⟩

end Laws

end Evaluation
end Criteria
