import Criteria.Proofs.EqualValues
import Criteria.Proofs.Unchanged

/-!
# Checking before binding

The check can be asked of a tree before it is bound.  Nothing is known then of the kinds of
its placeholders, and a kind of which nothing is known passes every rule.  Binding makes more
known of the kinds, moves the arguments of a placeholder below a call, and drops members of
set literals that have become equal.  A dropped member breaks a rule only if the member that
is kept in its place does, since the check does not tell equal trees apart.  So what passes
the check after it has been bound has passed it before, and a violation that is found early
is not repaired by binding.

**Results.**
* `vaguer_staticKind`: no more is known of the kind of a tree than of the bound tree.
* `check_of_instantiate`: a tree passes the check if what plain substitution makes of it does.
* `checked_before_bind`: a tree that can be bound passes the check as it stands.
-/

namespace Criteria
namespace Expr

open Outcome Evaluation

section Substitution

variable {space : Namespace} {locale : Option String} {e u : Expr}

/-- Of a placeholder no kind is known, and the other nodes keep theirs. -/
theorem vaguer_staticKind (h : e.instantiate space locale = .ok u) :
    Kind.Vaguer e.staticKind u.staticKind := by
  cases rebuilt_of_instantiate h with
  | name htarget => exact .inl rfl
  | request htarget hall => exact .inl rfl
  | string s => exact .inr rfl
  | number d => exact .inr rfl
  | set hall hkept => exact .inr rfl
  | «variable» path template => exact .inr rfl
  | call path template hall => exact .inr rfl
  | not hu => exact .inr rfl
  | binary op hl hr => exact .inr rfl

/-- A tree passes the check if what plain substitution makes of it does. -/
theorem check_of_instantiate
    (hspace : ∀ segments symbol, space.resolve locale segments = some symbol →
      symbol.Built)
    (he : e.Built) (hbound : e.instantiate space locale = .ok u) (hcheck : u.check = .ok ()) :
    e.check = .ok () := by
  induction he generalizing u with
  | @node e hhere hparts ih =>
      have hall {es us : List Expr} (hes : ∀ x ∈ es, x ∈ e.parts)
          (hinst : List.Forall₂ (fun x y => x.instantiate space locale = .ok y) es us)
          (hus : ∀ y ∈ us, y.check = .ok ()) : ∀ x ∈ es, x.check = .ok () := by
        intro x hx
        obtain ⟨y, hy, hxy⟩ := exists_right_of_forall₂ hinst hx
        exact ih x (hes x hx) hxy (hus y hy)
      obtain ⟨hchildren, hnode⟩ := check_eq_ok_iff.mp hcheck
      rw [check_eq_ok_iff]
      cases rebuilt_of_instantiate hbound with
      | string s => exact ⟨hchildren, hnode⟩
      | number d => exact ⟨hchildren, hnode⟩
      | @set members us kept hinst hkept =>
          -- A member that is dropped passes because an equal one does, which is kept.
          have hus : ∀ y ∈ us, y.Built :=
            built_of_forall₂ hinst fun x hx y => built_instantiate hspace (hparts x hx)
          exact ⟨hall (fun _ hx => hx) hinst (check_of_collect hus hkept hchildren), rfl⟩
      | name htarget => exact ⟨by simp [children, Placeholder.argumentList], rfl⟩
      | @request p path template us htarget hinst =>
          -- The arguments of the placeholder come first in the call.
          refine ⟨hall (fun _ hx => hx) hinst fun y hy => ?_, rfl⟩
          exact hchildren y (List.mem_append_left _ hy)
      | «variable» path template => exact ⟨hchildren, hnode⟩
      | call path template hinst =>
          refine ⟨hall (fun _ hx => argument_mem_parts hx) hinst hchildren, ?_⟩
          exact checkArguments_mono (hinst.imp fun _ _ => vaguer_staticKind) hnode
      | @not operand v hv =>
          refine ⟨?_, ?_⟩
          · intro x hx
            obtain rfl := List.mem_singleton.mp hx
            exact ih x (operand_mem_parts x) hv (hchildren v (List.mem_singleton_self v))
          · rw [checkNode, mapError_eq_ok_iff] at hnode ⊢
            exact checkNegation_mono (vaguer_staticKind hv) hnode
      | @binary op left right u v hl hr =>
          refine ⟨?_, ?_⟩
          · intro x hx
            rcases List.mem_pair.mp hx with rfl | rfl
            · exact ih x (left_mem_parts op x right) hl (hchildren u List.mem_cons_self)
            · exact ih x (right_mem_parts op left x) hr (hchildren v (by simp [children]))
          · rw [checkNode, mapError_eq_ok_iff] at hnode ⊢
            exact checkKinds_mono (vaguer_staticKind hl) (vaguer_staticKind hr) hnode

end Substitution

/-- A tree that can be bound in a registered namespace passes the check as it stands.  So a
tree that breaks a rule before it is bound cannot be bound anywhere. -/
theorem checked_before_bind {d : Draft} {space : Namespace} (hd : d.register = .ok space)
    (hbuilt : d.SymbolsBuilt) (locale : Option String) {e : Expr} (he : e.Built) :
    (∀ u, e.bind space locale = .ok u → e.check = .ok ()) ∧
      ∀ violation, e.check = .error violation →
        ∃ cause, e.bind space locale = .error cause := by
  have hcheck : ∀ u, e.bind space locale = .ok u → e.check = .ok () := by
    intro u h
    obtain ⟨hu, hbound⟩ := (bind_eq_ok_iff_instantiate he).mp h
    exact check_of_instantiate (fun _ _ => built_of_resolve hd hbuilt) he hu hbound
  refine ⟨hcheck, ?_⟩
  intro violation hviolation
  cases h : e.bind space locale with
  | error cause => exact ⟨cause, rfl⟩
  | ok u =>
      rw [hcheck u h] at hviolation
      cases hviolation

/-- A placeholder for `limit` collapses with the bound variable beside it.  The negation of a
set breaks a rule before anything is known of its members, and is not repaired. -/
theorem checked_before_bind_limits :
    let limit : VariableTemplate := ⟨⟨["limit"]⟩, some .number⟩
    let d : Draft := Draft.root.bind (Object.ofSymbol (.variable limit))
    let bound : Expr := .variable ⟨["limit"]⟩ limit
    let limits : Expr := .set [.placeholder ⟨[], ⟨["limit"]⟩, none⟩, bound]
    let e : Expr := .binary .belongsTo (.number (.ofInt 7)) limits
    ∃ space cause, d.register = .ok space ∧
      e.bind space none =
        .ok (.binary .belongsTo (.number (.ofInt 7)) (.set [bound])) ∧
      e.check = .ok () ∧ (Expr.not limits).bind space none = .error cause := by
  intro limit d bound limits e
  have hbuilt : d.SymbolsBuilt :=
    Draft.symbolsBuilt_iff.mpr ⟨List.forall_mem_singleton.mpr trivial, nofun⟩
  have hlimits : limits.Built := by
    refine Built.node (builtHere_set_iff.mpr ⟨limits.children, rfl⟩) ?_
    intro m hm
    rcases List.mem_pair.mp hm with rfl | rfl <;> exact built_leaf rfl
  have hbind : ∃ space, d.register = .ok space ∧ e.bind space none =
      .ok (.binary .belongsTo (.number (.ofInt 7)) (.set [bound])) := by
    simp only [d, e, limits, bound, limit]
    exact ⟨_, rfl, rfl⟩
  obtain ⟨space, hspace, hu⟩ := hbind
  obtain ⟨cause, hcause⟩ := (checked_before_bind hspace hbuilt none (built_not hlimits)).2 _ rfl
  have he : e.Built := built_binary _ (built_number _) hlimits
  exact ⟨space, cause, hspace, hu, (checked_before_bind hspace hbuilt none he).1 _ hu,
    hcause⟩

end Expr
end Criteria
