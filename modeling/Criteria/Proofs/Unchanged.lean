import Criteria.Proofs.Subtrees
import Criteria.Proofs.Target

/-!
# Trees that binding leaves alone

Binding looks for placeholders, and answers with nothing for a part of a tree in which it
has found none.  It goes down into the same children as the search for placeholders: the
members of a set literal, the arguments of a call and the operands.  So it answers with
nothing exactly for the trees that are bound already, and what becomes of such a tree does
not depend on the namespace or on the locale.

**Results.**
* `substitute_eq_none_iff`: nothing is to be replaced exactly in a bound tree.
* `bind_of_isBound`: a bound tree is checked and otherwise left as it is.
* `bind_bound_tree`: a bound tree is bound to itself, in any namespace and any locale.
-/

namespace Criteria

open Outcome

namespace Expr

variable {space : Namespace} {locale : Option String} {e : Expr}

section Substitute

theorem substituteAll_eq_none_iff {es : List Expr}
    (h : ∀ e ∈ es, e.substitute space locale = .ok none ↔ e.isBound = true) :
    substituteAll space locale es = .ok none ↔ isBoundAll es = true := by
  induction es with
  | nil => simp [substituteAll, isBoundAll, pure, Except.pure]
  | cons e es ih =>
      obtain ⟨he, hes⟩ := List.forall_mem_cons.mp h
      rw [isBoundAll, Bool.and_eq_true, ← he, ← ih hes, substituteAll]
      apply bind_bind_eq_none_iff
      rintro (_ | _) (_ | _) <;> simp [pure, Except.pure]

/-- What is made of a placeholder is never nothing. -/
theorem substitute_placeholder_ne_none (p : Placeholder Expr) :
    (placeholder p).substitute space locale ≠ .ok none := by
  obtain ⟨scope, name, _ | arguments⟩ := p
  · rw [substitute]
    intro h
    obtain ⟨⟨path, symbol⟩, -, h⟩ := bind_eq_ok_iff.mp h
    obtain ⟨u, -, h⟩ := bind_eq_ok_iff.mp h
    cases h
  · rw [substitute]
    intro h
    obtain ⟨⟨path, symbol⟩, -, h⟩ := bind_eq_ok_iff.mp h
    obtain ⟨changed, -, h⟩ := bind_eq_ok_iff.mp h
    obtain ⟨u, -, h⟩ := bind_eq_ok_iff.mp h
    cases h

/-- The binder has nothing to replace in a tree exactly when the tree is bound. -/
theorem substitute_eq_none_iff :
    e.substitute space locale = .ok none ↔ e.isBound = true := by
  induction e using child_induction with
  | node e ih =>
      match e with
      | .constant (.string _) => simp [substitute, isBound, pure, Except.pure]
      | .constant (.number _) => simp [substitute, isBound, pure, Except.pure]
      | .constant (.set members) =>
          have hmembers : ∀ m ∈ members, m.substitute space locale = .ok none ↔
              m.isBound = true := ih
          rw [isBound, ← substituteAll_eq_none_iff hmembers, substitute]
          apply bind_eq_none_iff
          rintro (_ | us)
          · simp [pure, Except.pure]
          · simp [bind_eq_ok_iff, pure, Except.pure]
      | .placeholder p => simp [isBound, substitute_placeholder_ne_none p]
      | .variable _ _ => simp [substitute, isBound, pure, Except.pure]
      | .call path template arguments =>
          have harguments : ∀ a ∈ arguments, a.substitute space locale = .ok none ↔
              a.isBound = true := ih
          rw [isBound, ← substituteAll_eq_none_iff harguments, substitute]
          apply bind_eq_none_iff
          rintro (_ | _) <;> simp [pure, Except.pure]
      | .not operand =>
          rw [isBound, ← ih operand (by simp [children]), substitute]
          apply bind_eq_none_iff
          rintro (_ | _) <;> simp [pure, Except.pure]
      | .binary op left right =>
          rw [isBound, Bool.and_eq_true, ← ih left (by simp [children]),
            ← ih right (by simp [children]), substitute]
          apply bind_bind_eq_none_iff
          rintro (_ | _) (_ | _) <;> simp [pure, Except.pure]

/-- Trees that are bound stay as they are. -/
theorem substituteAll_of_isBound {es : List Expr} (h : ∀ e ∈ es, e.isBound = true) :
    substituteAll space locale es = .ok none :=
  (substituteAll_eq_none_iff fun _ _ => substitute_eq_none_iff).mpr
    (isBoundAll_iff_forall.mpr h)

end Substitute

section Bind

/-- A bound tree is checked and otherwise left as it is. -/
theorem bind_of_isBound (h : e.isBound = true) :
    e.bind space locale = ((check e).mapError .type).map fun _ => e := by
  rw [bind, replacePlaceholders, substitute_eq_none_iff.mpr h]
  show ((check e).mapError BindingError.type >>= fun _ => pure e) = _
  cases check e <;> rfl

/-- What has been bound passes the checks. -/
theorem check_of_bind_eq_ok {u : Expr} (h : e.bind space locale = .ok u) :
    u.check = .ok () := by
  rw [bind] at h
  obtain ⟨bound, -, h⟩ := bind_eq_ok_iff.mp h
  obtain ⟨⟨⟩, hcheck, h⟩ := bind_eq_ok_iff.mp h
  cases h
  exact mapError_eq_ok_iff.mp hcheck

/-- A bound tree is bound to itself in any namespace and locale if it passes the checks, and
otherwise binding fails as the checks do.  So a tree that has been bound, and holds no
placeholder any more, is bound to itself again, wherever this is done. -/
theorem bind_bound_tree :
    (∀ e : Expr, e.isBound = true → ∀ space locale,
      (e.check = .ok () → e.bind space locale = .ok e) ∧
        ∀ violation, e.check = .error violation →
          e.bind space locale = .error (.type violation)) ∧
    ∀ (e u : Expr) space locale, e.bind space locale = .ok u → u.isBound = true →
      ∀ space' locale', u.bind space' locale' = .ok u := by
  have hself : ∀ e : Expr, e.isBound = true → e.check = .ok () → ∀ space locale,
      e.bind space locale = .ok e := by
    intro e hbound hcheck space locale
    rw [bind_of_isBound hbound, hcheck]
    rfl
  refine ⟨?_, ?_⟩
  · intro e hbound space locale
    refine ⟨fun hcheck => hself e hbound hcheck space locale, ?_⟩
    intro violation hcheck
    rw [bind_of_isBound hbound, hcheck]
    rfl
  · intro e u space locale h hbound
    exact hself u hbound (check_of_bind_eq_ok h)

/-- A number keeps its scale and a literal the order of its members, also where the names of
the tree are not known; and a tree that breaks a rule is refused there as the checks refuse
it. -/
theorem bind_bound_tree_limits :
    let limit : VariableTemplate := ⟨⟨["limit"]⟩, some .number⟩
    let d : Draft := Draft.root.bind (Object.ofSymbol (.variable limit))
    let limits : List Expr := [.variable ⟨["limit"]⟩ limit, .number ⟨7, 0⟩]
    let e : Expr := .binary .belongsTo (.number ⟨70, 1⟩)
      (.set [.placeholder ⟨[], ⟨["limit"]⟩, none⟩, .number ⟨7, 0⟩])
    let u : Expr := .binary .belongsTo (.number ⟨70, 1⟩) (.set limits)
    let wrong : Expr := .not (.set limits)
    let violation : TypeError :=
      .operands wrong.render (.mismatch .negation "Boolean" .set)
    ∃ space other, d.register = .ok space ∧ Draft.root.register = .ok other ∧
      e.bind space none = .ok u ∧ u.isBound = true ∧
      u.bind other (some "fr") = .ok u ∧
      wrong.isBound = true ∧ wrong.check = .error violation ∧
      wrong.bind other (some "fr") = .error (.type violation) := by
  intro limit d limits e u wrong violation
  have hbind : ∃ space other, d.register = .ok space ∧ Draft.root.register = .ok other ∧
      e.bind space none = .ok u := by
    simp only [d, e, u, limits, limit]
    exact ⟨_, _, rfl, rfl, rfl⟩
  obtain ⟨space, other, hspace, hother, hu⟩ := hbind
  have hwrong : wrong.check = .error violation := rfl
  obtain ⟨hself, hagain⟩ := bind_bound_tree
  exact ⟨space, other, hspace, hother, hu, rfl,
    hagain e u space none hu rfl other (some "fr"), rfl, hwrong,
    (hself wrong rfl other (some "fr")).2 violation hwrong⟩

end Bind

end Expr
end Criteria
