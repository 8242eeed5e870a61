import Criteria.Expr.Basic
import Criteria.Text.Quote

/-!
# Written expressions

The text of a tree.  An operand that is itself an operation stands in parentheses
unless its operator binds tighter than the one above it, so a tree can be told from
its text even where an operator is associative.
-/

namespace Criteria

namespace Expr

/-- How tightly the operator at the root binds; what is no operation and the
negation bind most tightly. -/
def precedence : Expr → Nat
  | .binary .or _ _ => 1
  | .binary .xor _ _ => 2
  | .binary .and _ _ => 3
  | .binary _ _ _ => 4
  | _ => 5

/-- The text of an operand below an operator of the given precedence. -/
def parenthesized (outer : Nat) (operand : Expr) (text : String) : String :=
  if operand.isOperation && operand.precedence ≤ outer then s!"({text})" else text

mutual

/-- The text of a tree. -/
def render : Expr → String
  | .constant (.string s) => Text.quoted s
  | .constant (.number d) => d.render
  | .constant (.set members) => "\x7b" ++ renderList members ++ "\x7d"
  | .placeholder ⟨scope, name, none⟩ => Path.joinDots (scope ++ name.segments)
  | .placeholder ⟨scope, name, some arguments⟩ =>
      Path.joinDots (scope ++ name.segments) ++ "(" ++ renderList arguments ++ ")"
  | .variable path _ => path.render
  | .call path _ arguments => path.render ++ "(" ++ renderList arguments ++ ")"
  | .not operand => "~ " ++ parenthesized 5 operand (render operand)
  | .binary op left right =>
      let outer := precedence (.binary op left right)
      parenthesized outer left (render left) ++ " " ++ op.symbol ++ " " ++
        parenthesized outer right (render right)

/-- The texts of trees between commas. -/
def renderList : List Expr → String
  | [] => ""
  | e :: es => render e ++ renderMore es

/-- The texts of trees after the first. -/
def renderMore : List Expr → String
  | [] => ""
  | e :: es => ", " ++ render e ++ renderMore es

end

end Expr

namespace Constant

/-- The text of a constant. -/
def render (c : Constant Expr) : String :=
  Expr.render (.constant c)

end Constant

namespace Placeholder

/-- The text of a placeholder. -/
def render (p : Placeholder Expr) : String :=
  Expr.render (.placeholder p)

end Placeholder

end Criteria
