import Criteria.Proofs.Outline
import Criteria.Proofs.Words

/-!
# Texts of skeletons

The text of a tree depends on its skeleton alone: whether a name is bound, and to what, is
not written.  Here the text of a skeleton is put together character by character, with
parentheses around an operand that binds no more tightly than the operator above it.

**Results.**
* `BinaryOp.symbol_append_inj`: an operator is told from what follows it.
* `legible_skeleton`: a tree whose names are ASCII identifiers has a legible skeleton.
* `text_skeleton`: the text of a tree is that of its skeleton.
-/

namespace Criteria

open Text

namespace BinaryOp

/-- How tightly an operator binds. -/
def level : BinaryOp → Nat
  | or => 1
  | xor => 2
  | and => 3
  | _ => 4

theorem level_pos (op : BinaryOp) : 0 < op.level := by
  cases op <;> decide

theorem level_lt_five (op : BinaryOp) : op.level < 5 := by
  cases op <;> decide

theorem ne_space_of_mem_symbol (op : BinaryOp) :
    ∀ c ∈ op.symbol.toList, decide (c ≠ ' ') = true := by
  rw [← List.all_eq_true]
  cases op <;> decide

/-- A symbol is told from what follows the space behind it. -/
theorem symbol_append_inj {op op' : BinaryOp} {rest rest' : List Char}
    (h : op.symbol.toList ++ ' ' :: rest = op'.symbol.toList ++ ' ' :: rest') :
    op = op' ∧ rest = rest' := by
  obtain ⟨hsymbol, hrest⟩ := span_append_inj op.ne_space_of_mem_symbol
    op'.ne_space_of_mem_symbol (by simp) (by simp) h
  exact ⟨symbol_injective (String.toList_inj.mp hsymbol), (List.cons.inj hrest).2⟩

end BinaryOp

namespace Outline

section Texts

variable {ν : Type}

/-- How tightly the operator at the root binds. -/
def level : Outline ν → Nat
  | binary op _ _ => op.level
  | _ => 5

def isOperation : Outline ν → Bool
  | not _ => true
  | binary _ _ _ => true
  | _ => false

/-- Whether an operand stands in parentheses below an operator. -/
def isGrouped (outer : Nat) (o : Outline ν) : Bool :=
  o.isOperation && decide (o.level ≤ outer)

/-- The text of an operand, given its text without parentheses. -/
def enclosed (outer : Nat) (o : Outline ν) (text : List Char) : List Char :=
  if o.isGrouped outer then '(' :: (text ++ [')']) else text

mutual

/-- The text of a skeleton. -/
def text : Outline Path → List Char
  | .string s => (quoted s).toList
  | .number written => written.toList
  | .set members => '\x7b' :: (textAll members ++ ['\x7d'])
  | .name path => path.render.toList
  | .call path arguments => path.render.toList ++ '(' :: (textAll arguments ++ [')'])
  | .not operand => '~' :: ' ' :: enclosed 5 operand (text operand)
  | .binary op left right =>
      enclosed op.level left (text left) ++
        ' ' :: (op.symbol.toList ++ ' ' :: enclosed op.level right (text right))

/-- The texts of skeletons between commas. -/
def textAll : List (Outline Path) → List Char
  | [] => []
  | o :: os => text o ++ textMore os

/-- The texts of skeletons after the first. -/
def textMore : List (Outline Path) → List Char
  | [] => []
  | o :: os => ',' :: ' ' :: (text o ++ textMore os)

end

/-- The text of a skeleton as an operand below an operator. -/
def operandText (outer : Nat) (o : Outline Path) : List Char :=
  enclosed outer o o.text

end Texts

/-- All names in a skeleton are paths of identifiers, and its numbers are written as
numbers are. -/
inductive Legible : Outline Path → Prop
  | string (s : String) : Legible (.string s)
  | number {written : String} : IsWord startsNumber written.toList → Legible (.number written)
  | set {members : List (Outline Path)} : (∀ m ∈ members, Legible m) → Legible (.set members)
  | name {path : Path} : path.Plain → Legible (.name path)
  | call {path : Path} {arguments : List (Outline Path)} :
      path.Plain → (∀ a ∈ arguments, Legible a) → Legible (.call path arguments)
  | not {operand : Outline Path} : Legible operand → Legible (.not operand)
  | binary {op : BinaryOp} {left right : Outline Path} :
      Legible left → Legible right → Legible (.binary op left right)

end Outline

namespace Expr

open Outline

/-- The names that stand at a node are ASCII identifiers, and a path has one at least. -/
def NamedPlainly : Expr → Prop
  | .placeholder p => (∀ s ∈ p.scope, isIdentifier s = true) ∧ p.name.Plain
  | .variable path _ => path.Plain
  | .call path _ _ => path.Plain
  | _ => True

instance : DecidablePred NamedPlainly
  | .constant _ => isTrue trivial
  | .placeholder p =>
      inferInstanceAs (Decidable ((∀ s ∈ p.scope, isIdentifier s = true) ∧ p.name.Plain))
  | .variable path _ => inferInstanceAs (Decidable path.Plain)
  | .call path _ _ => inferInstanceAs (Decidable path.Plain)
  | .not _ => isTrue trivial
  | .binary _ _ _ => isTrue trivial

section Skeletons

theorem plain_fullPath {p : Placeholder Expr} (h : (placeholder p).NamedPlainly) :
    Path.Plain ⟨p.fullPath⟩ := by
  obtain ⟨hscope, hne, hname⟩ := h
  refine ⟨?_, List.forall_mem_append.mpr ⟨hscope, hname⟩⟩
  simp [Placeholder.fullPath, hne]

theorem legible_skeleton {e : Expr} (h : e.Everywhere NamedPlainly) :
    e.skeleton.Legible := by
  induction e using child_induction with
  | node e ih =>
      have hself := h.self
      have hall {es : List Expr} (hes : ∀ c ∈ es, c ∈ e.children) :
          ∀ o ∈ outlineAll (fun written _ => written) es, o.Legible := by
        rw [outlineAll_eq_map]
        exact List.forall_mem_map.mpr fun c hc => ih c (hes c hc) (h.child (hes c hc))
      match e with
      | .constant (.string s) => exact .string s
      | .constant (.number d) => exact .number d.word
      | .constant (.set members) => exact .set (hall fun c hc => hc)
      | .placeholder ⟨_, _, none⟩ => exact .name (plain_fullPath hself)
      | .placeholder ⟨_, _, some arguments⟩ =>
          exact .call (plain_fullPath hself) (hall fun c hc => hc)
      | .variable path template => exact .name hself
      | .call path template arguments => exact .call hself (hall fun c hc => hc)
      | .not operand =>
          exact .not (ih operand (by simp [children]) (h.child (by simp [children])))
      | .binary op left right =>
          exact .binary (ih left (by simp [children]) (h.child (by simp [children])))
            (ih right (by simp [children]) (h.child (by simp [children])))

theorem precedence_binary (op : BinaryOp) (left right : Expr) :
    precedence (.binary op left right) = op.level := by
  cases op <;> rfl

theorem isGrouped_skeleton (outer : Nat) (e : Expr) :
    e.skeleton.isGrouped outer = (e.isOperation && decide (e.precedence ≤ outer)) := by
  match e with
  | .constant (.string _) => rfl
  | .constant (.number _) => rfl
  | .constant (.set _) => rfl
  | .placeholder ⟨_, _, none⟩ => rfl
  | .placeholder ⟨_, _, some _⟩ => rfl
  | .variable _ _ => rfl
  | .call _ _ _ => rfl
  | .not _ => rfl
  | .binary op left right =>
      rw [precedence_binary]
      rfl

theorem toList_parenthesized (outer : Nat) (e : Expr) (text : String) :
    (parenthesized outer e text).toList = e.skeleton.enclosed outer text.toList := by
  rw [parenthesized, enclosed, isGrouped_skeleton]
  split
  · show ("(" ++ text ++ ")").toList = _
    simp
  · rfl

mutual

/-- The text of a tree is that of its skeleton. -/
theorem text_skeleton : ∀ e : Expr, e.skeleton.text = e.render.toList
  | .constant (.string _) => rfl
  | .constant (.number _) => rfl
  | .constant (.set members) => by
      have ih := textAll_skeleton members
      simp [outline, text, render, ih]
  | .placeholder ⟨_, _, none⟩ => rfl
  | .placeholder ⟨_, _, some arguments⟩ => by
      have ih := textAll_skeleton arguments
      simp [outline, text, render, ih, Path.render]
  | .variable _ _ => rfl
  | .call path template arguments => by
      have ih := textAll_skeleton arguments
      simp [outline, text, render, ih]
  | .not operand => by
      have ih := text_skeleton operand
      simp [outline, text, render, toList_parenthesized, ih]
  | .binary op left right => by
      have hleft := text_skeleton left
      have hright := text_skeleton right
      simp [outline, text, render, toList_parenthesized, precedence_binary, hleft, hright]

theorem textAll_skeleton : ∀ es : List Expr,
    textAll (outlineAll (fun written _ => written) es) = (renderList es).toList
  | [] => rfl
  | e :: es => by
      have hfirst := text_skeleton e
      have hmore := textMore_skeleton es
      simp [outlineAll, textAll, renderList, hfirst, hmore]

theorem textMore_skeleton : ∀ es : List Expr,
    textMore (outlineAll (fun written _ => written) es) = (renderMore es).toList
  | [] => rfl
  | e :: es => by
      have hfirst := text_skeleton e
      have hmore := textMore_skeleton es
      simp [outlineAll, textMore, renderMore, hfirst, hmore]

end

end Skeletons

end Expr
end Criteria
