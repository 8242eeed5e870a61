import Criteria.Proofs.Denotation
import Criteria.Proofs.Equality

/-!
# Trees that stand for one another

When may one tree take the place of another?  It must be as high, of the same static kind
and pass the check with it, and it must have a corresponding value wherever the first one
has a value.  Which values correspond is left open: they may be the same, or equal, or
alike in some other way that no operator can tell apart.  Trees that are put together
alike from such trees are such trees again, one lemma for each kind of node.

**Results.**
* `apply_iff_apply`: what an operator yields does not depend on where it stands.
* `congruence_eq`: no operator can tell apart what is the same.
* `mirrors_not`, `mirrors_binary`, `mirrors_call`, `mirrors_set`: a node mirrors another
  when its children do.
* `evaluateValue_of_mirrors`: a tree that mirrors another evaluates alike.
-/

namespace Criteria

open Outcome Evaluation

section Related

variable {α β γ δ : Type} {R : α → β → Prop} {P : α → γ → Prop} {Q : β → δ → Prop}
  {S : γ → δ → Prop}

/-- What each member of a list has, the related member of another list has in its way. -/
theorem forall₂_transfer {xs : List α} {ys : List β} {zs : List γ}
    (hxy : List.Forall₂ R xs ys) (hxz : List.Forall₂ P xs zs)
    (step : ∀ x y z, R x y → P x z → ∃ w, Q y w ∧ S z w) :
    ∃ ws, List.Forall₂ Q ys ws ∧ List.Forall₂ S zs ws := by
  induction hxy generalizing zs with
  | nil =>
      cases hxz
      exact ⟨[], .nil, .nil⟩
  | @cons x y xs ys hxy _ ih =>
      cases hxz with
      | @cons _ z _ zs hxz hrest =>
          obtain ⟨w, hyw, hzw⟩ := step x y z hxy hxz
          obtain ⟨ws, hys, hzs⟩ := ih hrest
          exact ⟨w :: ws, .cons hyw hys, .cons hzw hzs⟩

theorem forall₂_zip_left {ps : List γ} {xs : List α} {ys : List β}
    (h : List.Forall₂ R xs ys) :
    List.Forall₂ (fun p q : γ × _ => p.1 = q.1 ∧ R p.2 q.2) (ps.zip xs) (ps.zip ys) := by
  induction h generalizing ps with
  | nil => cases ps <;> exact .nil
  | cons hxy _ ih =>
      cases ps with
      | nil => exact .nil
      | cons p ps => exact .cons ⟨rfl, hxy⟩ ih

theorem exists_right_of_forall₂ {xs : List α} {ys : List β} (h : List.Forall₂ R xs ys)
    {x : α} (hx : x ∈ xs) : ∃ y ∈ ys, R x y :=
  exists_left_of_forall₂ (R := flip R) h.flip hx

end Related

namespace Operation

variable {node node' : Expr} {op : BinaryOp} {l r : Value} {b : Bool}

theorem connect_eq_ok_iff {f : Bool → Bool → Bool} :
    connect node op f l r = .ok b ↔
      ∃ x y, l = .boolean x ∧ r = .boolean y ∧ f x y = b := by
  cases l <;> cases r <;> simp [connect]

theorem relate_eq_ok_iff :
    relate node op l r = .ok b ↔
      ∃ x y relation, l = .number x ∧ r = .number y ∧
        relation? op = some relation ∧ relation x y = b := by
  cases l <;> cases r <;> simp [relate]
  cases relation? op <;> simp

theorem belong_eq_ok_iff :
    belong node l r = .ok b ↔
      l.isSet = false ∧ r.isSet = true ∧ r.contains l = b := by
  cases r <;> cases l <;> simp [belong, Value.isSet]

theorem enclose_eq_ok_iff :
    enclose node l r = .ok b ↔
      ∃ members others, l = .set members ∧ r = .set others ∧
        members.all (Value.set others).contains = b := by
  cases l <;> cases r <;> simp [enclose]

/-- The node that an operator stands in is for its errors alone. -/
theorem apply_iff_apply : apply node op l r = .ok b ↔ apply node' op l r = .ok b := by
  cases op with
  | equal => exact Iff.rfl
  | notEqual => exact Iff.rfl
  | and => simp only [apply, conjoin, connect_eq_ok_iff]
  | or => simp only [apply, disjoin, connect_eq_ok_iff]
  | xor => simp only [apply, differ, connect_eq_ok_iff]
  | belongsTo => simp only [apply, belong_eq_ok_iff]
  | isSubset => simp only [apply, enclose_eq_ok_iff]
  | _ => simp only [apply, relate_eq_ok_iff]

end Operation

/-- A relation between values that no operator can tell apart: the kinds are the same, a
truth value corresponds to itself alone, and operators yield the same for corresponding
operands. -/
structure Congruence (V : Value → Value → Prop) : Prop where
  kind_eq : ∀ {v w}, V v w → v.kind = w.kind
  boolean_iff : ∀ {b w}, V (.boolean b) w ↔ w = .boolean b
  apply : ∀ {l l' r r'}, V l l' → V r r' → ∀ {node node' op b},
    Operation.apply node op l r = .ok b → Operation.apply node' op l' r' = .ok b

theorem congruence_eq : Congruence Eq where
  kind_eq h := h ▸ rfl
  boolean_iff := eq_comm
  apply hl hr := by
    subst hl hr
    exact Operation.apply_iff_apply.mp

namespace Congruence

variable {V : Value → Value → Prop} (hV : Congruence V) {node node' : Expr}
include hV

theorem negation {v w x : Value} (h : V v w) (hx : negation node v = .ok x) :
    Evaluation.negation node' w = .ok x := by
  obtain ⟨b, rfl, rfl⟩ := Oracle.negation_eq_ok_iff_boolean.mp hx
  rw [hV.boolean_iff.mp h]
  rfl

theorem operation {op : BinaryOp} {l l' r r' x : Value} (hl : V l l') (hr : V r r')
    (hx : operation node op l r = .ok x) :
    Evaluation.operation node' op l' r' = .ok x := by
  obtain ⟨⟨⟩, hrule, hx⟩ := bind_eq_ok_iff.mp hx
  obtain ⟨b, hb, hx⟩ := bind_eq_ok_iff.mp hx
  rw [mapError_eq_ok_iff, hV.kind_eq hl, hV.kind_eq hr] at hrule
  refine bind_eq_ok_iff.mpr ⟨(), mapError_eq_ok_iff.mpr hrule, ?_⟩
  exact bind_eq_ok_iff.mpr ⟨b, hV.apply hl hr hb, hx⟩

end Congruence

namespace Oracle

/-- The second tree can take the place of the first: it is of the same static kind and
height, passes the check if the first does, and has a corresponding value wherever the
first has one. -/
structure Mirrors (o : Oracle) (V : Value → Value → Prop) (e e' : Expr) : Prop where
  kind_eq : e.staticKind = e'.staticKind
  height_eq : e.height = e'.height
  check : e.check = .ok () → e'.check = .ok ()
  value : ∀ v, o.denote e = .ok v → ∃ w, o.denote e' = .ok w ∧ V v w

variable {o : Oracle} {V : Value → Value → Prop}

section Lists

variable {es es' : List Expr}

theorem heightAll_le_of_mirrors
    (h : ∀ e ∈ es, ∃ e' ∈ es', o.Mirrors V e e') :
    Expr.heightAll es ≤ Expr.heightAll es' := by
  refine heightAll_le_iff.mpr fun e he => ?_
  obtain ⟨e', he', hmirrors⟩ := h e he
  rw [hmirrors.height_eq]
  exact heightAll_le_iff.mp (Nat.le_refl _) e' he'

/-- Two lists that mirror each other are equally high. -/
theorem heightAll_eq_of_mirrors
    (h : ∀ e ∈ es, ∃ e' ∈ es', o.Mirrors V e e')
    (h' : ∀ e' ∈ es', ∃ e ∈ es, o.Mirrors V e e') :
    Expr.heightAll es = Expr.heightAll es' := by
  refine Nat.le_antisymm (heightAll_le_of_mirrors h) ?_
  refine heightAll_le_iff.mpr fun e' he' => ?_
  obtain ⟨e, he, hmirrors⟩ := h' e' he'
  rw [← hmirrors.height_eq]
  exact heightAll_le_iff.mp (Nat.le_refl _) e he

theorem checkAll_of_mirrors (h' : ∀ e' ∈ es', ∃ e ∈ es, o.Mirrors V e e')
    (h : ∀ e ∈ es, e.check = .ok ()) : ∀ e' ∈ es', e'.check = .ok () := by
  intro e' he'
  obtain ⟨e, he, hmirrors⟩ := h' e' he'
  exact hmirrors.check (h e he)

theorem checkArguments_of_mirrors {function function' : String} {ps : List Parameter}
    (hes : List.Forall₂ (o.Mirrors V) es es')
    (h : Expr.checkArguments function ps es = .ok ()) :
    Expr.checkArguments function' ps es' = .ok () :=
  checkArguments_mono (hes.flip.imp fun _ _ he => .inr he.kind_eq.symm) h

end Lists

section Nodes

variable {es es' : List Expr}

/-- A node without children that mirrors another one has the same value. -/
theorem mirrors_leaf {e e' : Expr} (hkind : e.staticKind = e'.staticKind)
    (hleaf : e.children = []) (hleaf' : e'.children = []) (hcheck : e'.checkNode = .ok ())
    (hvalue : ∀ v, o.denote e = .ok v → ∃ w, o.denote e' = .ok w ∧ V v w) :
    o.Mirrors V e e' where
  kind_eq := hkind
  height_eq := by rw [e.height_eq, e'.height_eq, hleaf, hleaf']
  check _ := check_eq_ok_iff.mpr ⟨by simp [hleaf'], hcheck⟩
  value := hvalue

/-- A set literal mirrors another one when their members mirror each other and the two have
corresponding values. -/
theorem mirrors_set (h : ∀ e ∈ es, ∃ e' ∈ es', o.Mirrors V e e')
    (h' : ∀ e' ∈ es', ∃ e ∈ es, o.Mirrors V e e')
    (hvalue : ∀ v, o.denote (.set es) = .ok v →
      ∃ w, o.denote (.set es') = .ok w ∧ V v w) :
    o.Mirrors V (.set es) (.set es') where
  kind_eq := rfl
  height_eq := by
    rw [Expr.height_eq, Expr.height_eq]
    exact congrArg (· + 1) (heightAll_eq_of_mirrors h h')
  check hcheck :=
    check_eq_ok_iff.mpr ⟨checkAll_of_mirrors h' (check_eq_ok_iff.mp hcheck).1, rfl⟩
  value := hvalue

theorem heightAll_eq_of_forall₂ (h : List.Forall₂ (o.Mirrors V) es es') :
    Expr.heightAll es = Expr.heightAll es' :=
  heightAll_eq_of_mirrors (fun _ he => exists_right_of_forall₂ h he) fun _ he =>
    exists_left_of_forall₂ h he

theorem mirrors_call {path path' : Path} {template template' : FunctionTemplate Expr}
    (hparameters : template.parameters = template'.parameters)
    (hreturns : template.returns = template'.returns)
    (hV : ∀ {v w}, V v w → v.kind = w.kind)
    (hresult : ∀ vs ws, List.Forall₂ V vs ws → ∀ v, o.result template vs = .ok v →
      ∃ w, o.result template' ws = .ok w ∧ V v w)
    (h : List.Forall₂ (o.Mirrors V) es es') :
    o.Mirrors V (.call path template es) (.call path' template' es') where
  kind_eq := hreturns
  height_eq := by
    rw [Expr.height_eq, Expr.height_eq]
    exact congrArg (· + 1) (heightAll_eq_of_forall₂ h)
  check hcheck := by
    obtain ⟨hchildren, hnode⟩ := check_eq_ok_iff.mp hcheck
    refine check_eq_ok_iff.mpr ⟨?_, ?_⟩
    · exact checkAll_of_mirrors (fun _ he => exists_left_of_forall₂ h he) hchildren
    · rw [Expr.checkNode, ← hparameters]
      exact checkArguments_of_mirrors h hnode
  value v hv := by
    obtain ⟨vs, hvs, hresult', hkind⟩ := denote_call_eq_ok_iff.mp hv
    obtain ⟨ws, hws, hvws⟩ :
        ∃ ws, List.Forall₂
            (fun x w => o.denote x.2 = .ok w ∧ Kind.Agrees x.1.kind w.kind)
            (template.parameters.zip es') ws ∧ List.Forall₂ V vs ws := by
      refine forall₂_transfer (forall₂_zip_left h) hvs ?_
      rintro ⟨p, e⟩ ⟨p', e'⟩ v ⟨hp, he⟩ ⟨hv, hkind⟩
      obtain ⟨w, hw, hvw⟩ := he.value v hv
      refine ⟨w, ⟨hw, ?_⟩, hvw⟩
      rw [← hp, ← hV hvw]
      exact hkind
    obtain ⟨w, hw, hvw⟩ := hresult vs ws hvws v hresult'
    refine ⟨w, denote_call_eq_ok_iff.mpr ⟨ws, hparameters ▸ hws, hw, ?_⟩, hvw⟩
    rw [← hreturns, ← hV hvw]
    exact hkind

theorem mirrors_request {scope scope' : List String} {name name' : Path}
    (h : List.Forall₂ (o.Mirrors V) es es') :
    o.Mirrors V (.placeholder ⟨scope, name, some es⟩)
      (.placeholder ⟨scope', name', some es'⟩) where
  kind_eq := rfl
  height_eq := by
    rw [Expr.height_eq, Expr.height_eq]
    exact congrArg (· + 1) (heightAll_eq_of_forall₂ h)
  check hcheck := check_eq_ok_iff.mpr
    ⟨checkAll_of_mirrors (fun _ he => exists_left_of_forall₂ h he)
      (check_eq_ok_iff.mp hcheck).1, rfl⟩
  value v hv := by cases hv

variable (hV : Congruence V)
include hV

theorem mirrors_not {operand operand' : Expr} (h : o.Mirrors V operand operand') :
    o.Mirrors V (.not operand) (.not operand') where
  kind_eq := rfl
  height_eq := by rw [Expr.height, Expr.height, h.height_eq]
  check hcheck := by
    obtain ⟨hchildren, hnode⟩ := check_eq_ok_iff.mp hcheck
    refine check_eq_ok_iff.mpr ⟨?_, ?_⟩
    · simpa [Expr.children] using h.check (hchildren operand (by simp [Expr.children]))
    · rw [Expr.checkNode, mapError_eq_ok_iff, h.kind_eq] at hnode
      exact mapError_eq_ok_iff.mpr hnode
  value v hv := by
    obtain ⟨x, hx, hv⟩ := bind_eq_ok_iff.mp hv
    obtain ⟨w, hw, hxw⟩ := h.value x hx
    refine ⟨v, bind_eq_ok_iff.mpr ⟨w, hw, hV.negation hxw hv⟩, ?_⟩
    obtain ⟨b, rfl⟩ := kind_eq_boolean_iff.mp (kind_of_negation hv)
    exact hV.boolean_iff.mpr rfl

theorem mirrors_binary {op : BinaryOp} {left left' right right' : Expr}
    (hl : o.Mirrors V left left') (hr : o.Mirrors V right right') :
    o.Mirrors V (.binary op left right) (.binary op left' right') where
  kind_eq := rfl
  height_eq := by rw [Expr.height, Expr.height, hl.height_eq, hr.height_eq]
  check hcheck := by
    obtain ⟨hchildren, hnode⟩ := check_eq_ok_iff.mp hcheck
    refine check_eq_ok_iff.mpr ⟨?_, ?_⟩
    · have hleft := hl.check (hchildren left (by simp [Expr.children]))
      have hright := hr.check (hchildren right (by simp [Expr.children]))
      simpa [Expr.children] using ⟨hleft, hright⟩
    · rw [Expr.checkNode, mapError_eq_ok_iff, hl.kind_eq, hr.kind_eq] at hnode
      exact mapError_eq_ok_iff.mpr hnode
  value v hv := by
    obtain ⟨l, r, hleft, hright, hv⟩ := denote_binary_eq_ok_iff.mp hv
    obtain ⟨l', hl', hll'⟩ := hl.value l hleft
    obtain ⟨r', hr', hrr'⟩ := hr.value r hright
    refine ⟨v, denote_binary_eq_ok_iff.mpr
      ⟨l', r', hl', hr', hV.operation hll' hrr' hv⟩, ?_⟩
    obtain ⟨b, rfl⟩ := kind_eq_boolean_iff.mp (kind_of_operation hv)
    exact hV.boolean_iff.mpr rfl

end Nodes

end Oracle

namespace Evaluation

variable {σ : Type} {limits : Limits} {ctx : Context σ} {o : Oracle}
  {V : Value → Value → Prop} {e e' : Expr} {v : Value} {s s' : σ}

/-- Where a tree has a value, a tree that mirrors it has a corresponding one. -/
theorem evaluateValue_of_mirrors (hctx : ctx.Follows o) (h : o.Mirrors V e e')
    (hv : evaluateValue limits ctx e s = .ok v s') (t : σ) :
    ∃ w t', evaluateValue limits ctx e' t = .ok w t' ∧ V v w := by
  obtain ⟨⟨hcheck, hheight⟩, hvalue⟩ := (evaluateValue_eq_ok_iff hctx s).mp ⟨s', hv⟩
  obtain ⟨w, hw, hvw⟩ := h.value v hvalue
  obtain ⟨t', ht⟩ := (evaluateValue_eq_ok_iff hctx t).mpr
    ⟨⟨h.check hcheck, h.height_eq ▸ hheight⟩, hw⟩
  exact ⟨w, t', ht, hvw⟩

end Evaluation

end Criteria
