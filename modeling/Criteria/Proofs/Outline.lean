import Criteria.Expr.Render
import Criteria.Proofs.Subtrees

/-!
# Outlines

What a tree says, apart from how its names came to stand there: its nodes, its operators
with their operands in order, its texts, its numbers as they are written, the members of its
sets and the arguments of its calls, and something at each name.  What stands at a name is
left open.  It may be the path that is written there, so that a placeholder cannot be told
from what it is bound to, or the path together with the template that it is bound to.

**Results.**
* `size_le_of_mem`: a member of a list is no larger than the list.
* `outlineAll_eq_map`: the outlines of a list are those of its members.
-/

namespace Criteria

/-- A tree that has `ν` at its names. -/
inductive Outline (ν : Type) where
  | string (s : String)
  /-- A number, as it is written. -/
  | number (written : String)
  | set (members : List (Outline ν))
  | name (n : ν)
  | call (n : ν) (arguments : List (Outline ν))
  | not (operand : Outline ν)
  | binary (op : BinaryOp) (left right : Outline ν)

namespace Outline

section Size

variable {ν : Type}

mutual

/-- The number of nodes of an outline. -/
def size : Outline ν → Nat
  | .string _ => 1
  | .number _ => 1
  | .set members => sizeAll members + 1
  | .name _ => 1
  | .call _ arguments => sizeAll arguments + 1
  | .not operand => size operand + 1
  | .binary _ left right => size left + size right + 1

def sizeAll : List (Outline ν) → Nat
  | [] => 0
  | o :: os => size o + sizeAll os

end

theorem size_le_of_mem {o : Outline ν} {os : List (Outline ν)} (h : o ∈ os) :
    o.size ≤ sizeAll os := by
  induction os with
  | nil => cases h
  | cons p ps ih =>
      rw [sizeAll]
      rcases List.mem_cons.mp h with rfl | h
      · omega
      · have := ih h
        omega

end Size

end Outline

namespace Expr

section Outlines

variable {ν : Type} (label : Path → Option Path → ν)

mutual

/-- The outline of a tree.  A name is labelled from the path that stands there, with its
namespaces, and from the qualified name of the template, if it is bound to one. -/
def outline : Expr → Outline ν
  | .constant (.string s) => .string s
  | .constant (.number d) => .number d.render
  | .constant (.set members) => .set (outlineAll members)
  | .placeholder ⟨scope, name, none⟩ => .name (label ⟨scope ++ name.segments⟩ none)
  | .placeholder ⟨scope, name, some arguments⟩ =>
      .call (label ⟨scope ++ name.segments⟩ none) (outlineAll arguments)
  | .variable path template => .name (label path (some template.qualifiedName))
  | .call path template arguments =>
      .call (label path (some template.qualifiedName)) (outlineAll arguments)
  | .not operand => .not (outline operand)
  | .binary op left right => .binary op (outline left) (outline right)

def outlineAll : List Expr → List (Outline ν)
  | [] => []
  | e :: es => outline e :: outlineAll es

end

theorem outlineAll_eq_map (es : List Expr) : outlineAll label es = es.map (outline label) := by
  induction es with
  | nil => rfl
  | cons e es ih => rw [outlineAll, ih, List.map_cons]

end Outlines

/-- What remains of a tree when it is forgotten which names are bound, and to what. -/
abbrev skeleton : Expr → Outline Path :=
  outline fun written _ => written

/-- What remains of a tree when of each template only the qualified name is kept. -/
abbrev content : Expr → Outline (Path × Option Path) :=
  outline fun written qualified => (written, qualified)

end Expr
end Criteria
