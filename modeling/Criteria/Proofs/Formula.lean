import Criteria.Proofs.Denotation

/-!
# Propositional formulas

The connectives of a condition are those of propositional logic.  Both operands of a
connective are always evaluated and both must be truth values, so a formula over trees has
a value exactly when all of its atoms have one, and the value is then the one in its truth
table.  Whether an atom stands at the root, below a negation or deep in a formula makes no
difference, but it does make one whether the atom occurs at all: a tree that fails in the
place of an atom fails only the formulas that the atom occurs in.

**Results.**
* `denote_instantiate_eq_ok_iff`: what a formula over trees denotes.
* `evaluate_iff_of_equivalent`: formulas over the same atoms that have the same truth
  table evaluate alike.
-/

namespace Criteria

open Outcome Evaluation

/-- A connective of two formulas. -/
inductive Connective where
  | and
  | or
  | xor
deriving DecidableEq

namespace Connective

/-- The operator that stands for the connective in a tree. -/
def op : Connective → BinaryOp
  | and => .and
  | or => .or
  | xor => .xor

/-- The truth function of the connective. -/
def apply : Connective → Bool → Bool → Bool
  | and, a, b => a && b
  | or, a, b => a || b
  | xor, a, b => a != b

/-- A connective is defined on truth values alone, where it is its truth function. -/
theorem operation_eq_ok_iff {c : Connective} {node : Expr} {l r v : Value} :
    operation node c.op l r = .ok v ↔
      ∃ a b, l = .boolean a ∧ r = .boolean b ∧ v = .boolean (c.apply a b) := by
  constructor
  · intro h
    have hkinds : l.kind = .boolean ∧ r.kind = .boolean := by
      have hrule := Evaluation.operation_eq_ok_iff.mp ⟨v, h⟩
      cases c <;> simpa only [op, BinaryOp.checkKinds, check_bind_eq_ok_iff,
        expectBoolean_some] using hrule
    obtain ⟨a, rfl⟩ := kind_eq_boolean_iff.mp hkinds.1
    obtain ⟨b, rfl⟩ := kind_eq_boolean_iff.mp hkinds.2
    refine ⟨a, b, rfl, rfl, ?_⟩
    cases c <;> cases h <;> rfl
  · rintro ⟨a, b, rfl, rfl, rfl⟩
    cases c <;> rfl

end Connective

/-- A propositional formula. -/
inductive Formula (α : Type) where
  | atom (i : α)
  | not (f : Formula α)
  | binary (c : Connective) (f g : Formula α)

namespace Formula

variable {α : Type}

section Defs

/-- The atoms that occur in a formula. -/
def atoms : Formula α → List α
  | atom i => [i]
  | not f => f.atoms
  | binary _ f g => f.atoms ++ g.atoms

/-- The line of the truth table for a valuation of the atoms. -/
def truth (β : α → Bool) : Formula α → Bool
  | atom i => β i
  | not f => !f.truth β
  | binary c f g => c.apply (f.truth β) (g.truth β)

/-- The tree that has a tree in the place of each atom. -/
def instantiate (τ : α → Expr) : Formula α → Expr
  | atom i => τ i
  | not f => .not (f.instantiate τ)
  | binary c f g => .binary c.op (f.instantiate τ) (g.instantiate τ)

/-- Two formulas have the same atoms and the same truth table. -/
structure Equivalent (f g : Formula α) : Prop where
  mem_atoms_iff : ∀ i, i ∈ f.atoms ↔ i ∈ g.atoms
  truth_eq : ∀ β, f.truth β = g.truth β

/-- Both sides of De Morgan's law for a conjunction. -/
theorem equivalent_not_and (f g : Formula α) :
    Equivalent (.not (.binary .and f g)) (.binary .or (.not f) (.not g)) where
  mem_atoms_iff i := by simp [atoms]
  truth_eq β := by simp [truth, Connective.apply]

end Defs

section Denotation

variable {o : Oracle} {τ : α → Expr} {f g : Formula α}

/-- The truth values of the trees for the atoms; false stands for a tree without one. -/
def valuation (o : Oracle) (τ : α → Expr) (i : α) : Bool :=
  match o.denote (τ i) with
  | .ok (.boolean b) => b
  | _ => false

theorem valuation_of_denote {i : α} {b : Bool} (h : o.denote (τ i) = .ok (.boolean b)) :
    valuation o τ i = b := by
  rw [valuation, h]

/-- A formula over trees denotes the truth value in its truth table, if the trees for all
of its atoms denote truth values, and otherwise none. -/
theorem denote_instantiate_eq_ok_iff {b : Bool} :
    o.denote (f.instantiate τ) = .ok (.boolean b) ↔
      (∀ i ∈ f.atoms, o.denote (τ i) = .ok (.boolean (valuation o τ i))) ∧
        f.truth (valuation o τ) = b := by
  induction f generalizing b with
  | atom i =>
      simp only [instantiate, atoms, truth, List.mem_singleton, forall_eq]
      constructor
      · intro h
        rw [valuation_of_denote h]
        exact ⟨h, rfl⟩
      · rintro ⟨h, rfl⟩
        exact h
  | not f ih =>
      simp only [instantiate, atoms, truth, Oracle.denote_not_eq_ok_iff, ih]
      constructor
      · rintro ⟨c, ⟨hatoms, rfl⟩, hb⟩
        cases hb
        exact ⟨hatoms, rfl⟩
      · rintro ⟨hatoms, rfl⟩
        exact ⟨_, ⟨hatoms, rfl⟩, rfl⟩
  | binary c f g ihf ihg =>
      simp only [instantiate, atoms, truth, Oracle.denote_binary_eq_ok_iff,
        Connective.operation_eq_ok_iff, List.forall_mem_append]
      constructor
      · rintro ⟨_, _, hf, hg, x, y, rfl, rfl, hb⟩
        cases hb
        obtain ⟨hatoms, rfl⟩ := ihf.mp hf
        obtain ⟨hatoms', rfl⟩ := ihg.mp hg
        exact ⟨⟨hatoms, hatoms'⟩, rfl⟩
      · rintro ⟨⟨hatoms, hatoms'⟩, rfl⟩
        exact ⟨_, _, ihf.mpr ⟨hatoms, rfl⟩, ihg.mpr ⟨hatoms', rfl⟩, _, _, rfl, rfl, rfl⟩

/-- Equivalent formulas over trees denote the same truth value, or both none. -/
theorem Equivalent.denote_iff (h : f.Equivalent g) {b : Bool} :
    o.denote (f.instantiate τ) = .ok (.boolean b) ↔
      o.denote (g.instantiate τ) = .ok (.boolean b) := by
  rw [denote_instantiate_eq_ok_iff, denote_instantiate_eq_ok_iff, h.truth_eq]
  simp only [h.mem_atoms_iff]

theorem callsComplete_instantiate (h : ∀ i ∈ f.atoms, (τ i).CallsComplete) :
    (f.instantiate τ).CallsComplete := by
  induction f with
  | atom i => exact h i (List.mem_singleton_self i)
  | not f ih =>
      refine Expr.everywhere_iff.mpr ⟨trivial, ?_⟩
      simpa [instantiate, Expr.children] using ih h
  | binary c f g ihf ihg =>
      obtain ⟨hf, hg⟩ := List.forall_mem_append.mp h
      refine Expr.everywhere_iff.mpr ⟨trivial, ?_⟩
      simpa [instantiate, Expr.children] using ⟨ihf hf, ihg hg⟩

end Denotation

section Evaluation

variable {σ : Type} {limits : Limits} {ctx : Context σ} {s : σ}

/-- A condition is true or false when this is its value. -/
theorem evaluate_eq_ok_iff {e : Expr} {b : Bool} :
    (∃ s', evaluate limits ctx e s = .ok b s') ↔
      ∃ s', evaluateValue limits ctx e s = .ok (.boolean b) s' := by
  simp only [evaluate, run_bind_eq_ok_iff]
  constructor
  · rintro ⟨s', v, s₁, hv, h⟩
    cases v with
    | boolean c =>
        cases h
        exact ⟨s', hv⟩
    | number n => cases h
    | string t => cases h
    | set members => cases h
  · rintro ⟨s', hv⟩
    exact ⟨s', _, s', hv, rfl⟩

/-- Formulas over the same atoms that have the same truth table evaluate alike, whatever
trees stand for the atoms, in every deterministic context and from whatever states, as
long as the limit reaches down to the leaves of both trees. -/
theorem evaluate_iff_of_equivalent {f g : Formula α} (h : f.Equivalent g)
    (deterministic : ctx.Deterministic) {τ : α → Expr}
    (complete : ∀ i ∈ f.atoms, (τ i).CallsComplete)
    (within : (f.instantiate τ).height ≤ limits.maxDepth)
    (within' : (g.instantiate τ).height ≤ limits.maxDepth) (s t : σ) (b : Bool) :
    (∃ s', evaluate limits ctx (f.instantiate τ) s = .ok b s') ↔
      ∃ t', evaluate limits ctx (g.instantiate τ) t = .ok b t' := by
  have hfollows := deterministic.follows s
  have complete' : ∀ i ∈ g.atoms, (τ i).CallsComplete := fun i hi =>
    complete i ((h.mem_atoms_iff i).mpr hi)
  rw [evaluate_eq_ok_iff, evaluate_eq_ok_iff,
    evaluateValue_eq_ok_iff_denote hfollows (callsComplete_instantiate complete),
    evaluateValue_eq_ok_iff_denote hfollows (callsComplete_instantiate complete'),
    h.denote_iff]
  simp [within, within']

/-- De Morgan's law for a variable and a comparison, in a context that counts its
questions. -/
theorem evaluate_iff_of_equivalent_deMorgan :
    let active : Expr := .variable ⟨["active"]⟩ ⟨⟨["active"]⟩, some .boolean⟩
    let age : Expr := .variable ⟨["age"]⟩ ⟨⟨["age"]⟩, none⟩
    let τ : Bool → Expr := fun i =>
      if i then active else .binary .lessThan age (.number (.ofInt 18))
    let f : Formula Bool := .not (.binary .and (.atom true) (.atom false))
    let g : Formula Bool := .binary .or (.not (.atom true)) (.not (.atom false))
    let ctx : Context Nat :=
      ⟨fun t n =>
        .ok (if t.kind = none then .number (.ofInt 20) else .boolean true) (n + 1),
        fun _ _ n => .error (.undefinedFunction "") n, fun _ _ n => n⟩
    f.Equivalent g ∧ ctx.Deterministic ∧ (∀ i ∈ f.atoms, (τ i).CallsComplete) ∧
      evaluate {} ctx (f.instantiate τ) 0 = .ok true 2 ∧
      ∃ t', evaluate {} ctx (g.instantiate τ) 5 = .ok true t' := by
  intro active age τ f g ctx
  have hequivalent : f.Equivalent g := equivalent_not_and (.atom true) (.atom false)
  have hdet : ctx.Deterministic := ⟨fun _ _ _ => rfl, fun _ _ _ _ => rfl⟩
  have hcomplete : ∀ i ∈ f.atoms, (τ i).CallsComplete := by decide
  have hvalue : evaluate {} ctx (f.instantiate τ) 0 = .ok true 2 := rfl
  refine ⟨hequivalent, hdet, hcomplete, hvalue, ?_⟩
  exact (evaluate_iff_of_equivalent hequivalent hdet hcomplete (by decide) (by decide)
    0 5 true).mp ⟨2, hvalue⟩

end Evaluation

end Formula

end Criteria
