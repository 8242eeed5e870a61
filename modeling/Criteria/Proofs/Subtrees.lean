import Criteria.Typing.Check

/-!
# Trees inside a tree

The trees inside a tree are listed from the root down, a node before its children, or
in the order of evaluation, a node after them.  A property holds everywhere in a tree
when it holds of each of them; with it one says that every call is complete or that
every variable declares a kind.

**Results.**
* `child_induction`: what passes from the children of a node to the node holds of all
  trees.
* `everywhere_iff`: a property holds everywhere when it holds at the root and
  everywhere in the children.
* `mem_placeholders_iff`: the placeholders of a tree are those among the trees inside it.
* `postorder_eq`: in the order of evaluation the children come first, then the node.
-/

namespace Criteria
namespace Expr

mutual

/-- The tree and all trees inside it, a node before its children. -/
def subtrees : Expr → List Expr
  | .constant (.set members) => .constant (.set members) :: subtreesAll members
  | .constant (.string s) => [.constant (.string s)]
  | .constant (.number d) => [.constant (.number d)]
  | .placeholder ⟨scope, name, none⟩ => [.placeholder ⟨scope, name, none⟩]
  | .placeholder ⟨scope, name, some arguments⟩ =>
      .placeholder ⟨scope, name, some arguments⟩ :: subtreesAll arguments
  | .variable path template => [.variable path template]
  | .call path template arguments =>
      .call path template arguments :: subtreesAll arguments
  | .not operand => .not operand :: subtrees operand
  | .binary op left right =>
      .binary op left right :: (subtrees left ++ subtrees right)

/-- The trees inside the trees of a list. -/
def subtreesAll : List Expr → List Expr
  | [] => []
  | e :: es => subtrees e ++ subtreesAll es

end

/-- Whether a property holds of a tree and of all trees inside it. -/
def Everywhere (P : Expr → Prop) (e : Expr) : Prop :=
  ∀ t ∈ e.subtrees, P t

instance (P : Expr → Prop) [DecidablePred P] (e : Expr) : Decidable (e.Everywhere P) :=
  inferInstanceAs (Decidable (∀ t ∈ e.subtrees, P t))

/-- A call has one argument for each parameter; other nodes ask for nothing. -/
def CallFits : Expr → Prop
  | .call _ template arguments => arguments.length = template.parameters.length
  | _ => True

instance : DecidablePred CallFits
  | .constant _ => isTrue trivial
  | .placeholder _ => isTrue trivial
  | .variable _ _ => isTrue trivial
  | .call _ template arguments =>
      inferInstanceAs (Decidable (arguments.length = template.parameters.length))
  | .not _ => isTrue trivial
  | .binary _ _ _ => isTrue trivial

/-- Every call in a tree has one argument for each parameter. -/
abbrev CallsComplete (e : Expr) : Prop :=
  e.Everywhere CallFits

section Children

mutual

private theorem of_children {motive : Expr → Prop}
    (node : ∀ e, (∀ c ∈ e.children, motive c) → motive e) :
    ∀ e, motive e
  | .constant (.set members) => node _ (of_childrenAll node members)
  | .constant (.string _) => node _ (by simp [children])
  | .constant (.number _) => node _ (by simp [children])
  | .placeholder ⟨_, _, none⟩ =>
      node _ (by simp [children, Placeholder.argumentList])
  | .placeholder ⟨_, _, some arguments⟩ => node _ (of_childrenAll node arguments)
  | .variable _ _ => node _ (by simp [children])
  | .call _ _ arguments => node _ (of_childrenAll node arguments)
  | .not operand => node _ (by simpa [children] using of_children node operand)
  | .binary _ left right =>
      node _ (by
        simpa [children] using ⟨of_children node left, of_children node right⟩)

private theorem of_childrenAll {motive : Expr → Prop}
    (node : ∀ e, (∀ c ∈ e.children, motive c) → motive e) :
    ∀ es : List Expr, ∀ c ∈ es, motive c
  | [], _, h => absurd h List.not_mem_nil
  | e :: es, c, h => by
      rcases List.mem_cons.mp h with h | h
      · rw [h]
        exact of_children node e
      · exact of_childrenAll node es c h

end

/-- What passes from the children of every node to the node holds of all trees. -/
@[elab_as_elim]
theorem child_induction {motive : Expr → Prop}
    (node : ∀ e, (∀ c ∈ e.children, motive c) → motive e) (e : Expr) :
    motive e :=
  of_children node e

theorem isBoundAll_iff_forall {es : List Expr} :
    isBoundAll es = true ↔ ∀ e ∈ es, e.isBound = true := by
  induction es with
  | nil => simp [isBoundAll]
  | cons e es ih => simp [isBoundAll, ih]

theorem isBound_of_mem_children {c e : Expr}
    (h : e.isBound = true) (hc : c ∈ e.children) :
    c.isBound = true := by
  match e with
  | .constant (.set _) => exact isBoundAll_iff_forall.mp h c hc
  | .call _ _ _ => exact isBoundAll_iff_forall.mp h c hc
  | .not _ =>
      rw [children, List.mem_singleton] at hc
      rw [hc]
      exact h
  | .binary _ _ _ =>
      rw [isBound, Bool.and_eq_true] at h
      simp only [children, List.mem_cons, List.not_mem_nil, or_false] at hc
      rcases hc with rfl | rfl
      · exact h.1
      · exact h.2
  | .constant (.string _) => simp [children] at hc
  | .constant (.number _) => simp [children] at hc
  | .variable _ _ => simp [children] at hc
  | .placeholder _ => simp [isBound] at h

theorem height_eq (e : Expr) : e.height = heightAll e.children + 1 := by
  match e with
  | .constant (.set _) => rfl
  | .constant (.string _) => rfl
  | .constant (.number _) => rfl
  | .placeholder ⟨_, _, none⟩ => rfl
  | .placeholder ⟨_, _, some _⟩ => rfl
  | .variable _ _ => rfl
  | .call _ _ _ => rfl
  | .not _ => simp [height, children, heightAll]
  | .binary _ _ _ => simp [height, children, heightAll]

theorem placeholders_placeholder (p : Placeholder Expr) :
    (placeholder p).placeholders = p :: placeholdersAll p.argumentList := by
  obtain ⟨scope, name, _ | arguments⟩ := p <;> rfl

end Children

section Subtrees

theorem mem_subtreesAll {t : Expr} {es : List Expr} :
    t ∈ subtreesAll es ↔ ∃ e ∈ es, t ∈ e.subtrees := by
  induction es with
  | nil => simp [subtreesAll]
  | cons e es ih => simp [subtreesAll, ih]

theorem subtrees_eq (e : Expr) : e.subtrees = e :: subtreesAll e.children := by
  match e with
  | .constant (.set _) => rfl
  | .constant (.string _) => rfl
  | .constant (.number _) => rfl
  | .placeholder ⟨_, _, none⟩ => rfl
  | .placeholder ⟨_, _, some _⟩ => rfl
  | .variable _ _ => rfl
  | .call _ _ _ => rfl
  | .not _ => simp [subtrees, children, subtreesAll]
  | .binary _ _ _ => simp [subtrees, children, subtreesAll]

theorem self_mem_subtrees (e : Expr) : e ∈ e.subtrees := by
  rw [subtrees_eq]
  exact List.mem_cons_self

theorem mem_subtrees_iff {t e : Expr} :
    t ∈ e.subtrees ↔ t = e ∨ ∃ c ∈ e.children, t ∈ c.subtrees := by
  rw [subtrees_eq, List.mem_cons, mem_subtreesAll]

theorem mem_subtrees_of_child {t c e : Expr}
    (hc : c ∈ e.children) (ht : t ∈ c.subtrees) :
    t ∈ e.subtrees :=
  mem_subtrees_iff.mpr (Or.inr ⟨c, hc, ht⟩)

theorem mem_placeholdersAll {p : Placeholder Expr} {es : List Expr} :
    p ∈ placeholdersAll es ↔ ∃ e ∈ es, p ∈ e.placeholders := by
  induction es with
  | nil => simp [placeholdersAll]
  | cons e es ih => simp [placeholdersAll, ih]

/-- The placeholders of a tree are those among the trees inside it. -/
theorem mem_placeholders_iff {p : Placeholder Expr} {e : Expr} :
    p ∈ e.placeholders ↔ placeholder p ∈ e.subtrees := by
  induction e using child_induction with
  | node e ih =>
      have hall {es : List Expr} (hes : ∀ c ∈ es, c ∈ e.children) :
          p ∈ placeholdersAll es ↔ ∃ c ∈ es, placeholder p ∈ c.subtrees := by
        rw [mem_placeholdersAll]
        exact exists_congr fun c => and_congr_right fun hc => ih c (hes c hc)
      rw [mem_subtrees_iff]
      match e with
      | .constant (.set members) =>
          simpa [placeholders, children] using hall fun c (hc : c ∈ members) => hc
      | .constant (.string _) => simp [placeholders, children]
      | .constant (.number _) => simp [placeholders, children]
      | .placeholder ⟨scope, name, none⟩ =>
          simp [placeholders, children, Placeholder.argumentList]
      | .placeholder ⟨scope, name, some arguments⟩ =>
          simpa [placeholders, children, Placeholder.argumentList] using
            or_congr_right (hall fun c (hc : c ∈ arguments) => hc)
      | .variable _ _ => simp [placeholders, children]
      | .call path template arguments =>
          simpa [placeholders, children] using hall fun c (hc : c ∈ arguments) => hc
      | .not operand =>
          simpa [placeholders, children] using ih operand (by simp [children])
      | .binary op left right =>
          simpa [placeholders, children] using
            or_congr (ih left (by simp [children])) (ih right (by simp [children]))

theorem self_mem_placeholders (p : Placeholder Expr) :
    p ∈ (placeholder p).placeholders := by
  rw [placeholders_placeholder]
  exact List.mem_cons_self

theorem mem_placeholders_of_child {p : Placeholder Expr} {c e : Expr}
    (hc : c ∈ e.children) (hp : p ∈ c.placeholders) : p ∈ e.placeholders :=
  mem_placeholders_iff.mpr (mem_subtrees_of_child hc (mem_placeholders_iff.mp hp))

end Subtrees

section Everywhere

variable {P : Expr → Prop} {e : Expr}

theorem everywhere_iff :
    e.Everywhere P ↔ P e ∧ ∀ c ∈ e.children, c.Everywhere P := by
  constructor
  · intro h
    refine ⟨h e (self_mem_subtrees e), ?_⟩
    intro c hc t ht
    exact h t (mem_subtrees_of_child hc ht)
  · rintro ⟨hself, hchildren⟩ t ht
    rcases mem_subtrees_iff.mp ht with rfl | ⟨c, hc, ht⟩
    · exact hself
    · exact hchildren c hc t ht

theorem Everywhere.self (h : e.Everywhere P) : P e :=
  (everywhere_iff.mp h).1

theorem Everywhere.child (h : e.Everywhere P) {c : Expr} (hc : c ∈ e.children) :
    c.Everywhere P :=
  (everywhere_iff.mp h).2 c hc

end Everywhere

section Postorder

mutual

/-- The tree and all trees inside it from left to right, a node after its children. -/
def postorder : Expr → List Expr
  | .constant (.set members) => postorderAll members ++ [.constant (.set members)]
  | .constant (.string s) => [.constant (.string s)]
  | .constant (.number d) => [.constant (.number d)]
  | .placeholder ⟨scope, name, none⟩ => [.placeholder ⟨scope, name, none⟩]
  | .placeholder ⟨scope, name, some arguments⟩ =>
      postorderAll arguments ++ [.placeholder ⟨scope, name, some arguments⟩]
  | .variable path template => [.variable path template]
  | .call path template arguments =>
      postorderAll arguments ++ [.call path template arguments]
  | .not operand => postorder operand ++ [.not operand]
  | .binary op left right =>
      postorder left ++ (postorder right ++ [.binary op left right])

/-- The trees inside the trees of a list, from left to right. -/
def postorderAll : List Expr → List Expr
  | [] => []
  | e :: es => postorder e ++ postorderAll es

end

theorem postorder_eq (e : Expr) : e.postorder = postorderAll e.children ++ [e] := by
  match e with
  | .constant (.set _) => rfl
  | .constant (.string _) => rfl
  | .constant (.number _) => rfl
  | .placeholder ⟨_, _, none⟩ => rfl
  | .placeholder ⟨_, _, some _⟩ => rfl
  | .variable _ _ => rfl
  | .call _ _ _ => rfl
  | .not _ => simp [postorder, children, postorderAll]
  | .binary _ _ _ => simp [postorder, children, postorderAll]

end Postorder

end Expr
end Criteria
