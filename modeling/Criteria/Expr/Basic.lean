import Criteria.Operator
import Criteria.Template

/-!
# Expressions

A condition is a tree.  Its leaves are constants, placeholders, which still have to
be bound to a template, and variables; above them stand calls, negations and binary
operations.  A set literal, a placeholder and a call have the expressions inside
them as children.

**Results.**
* `isBound_iff`: a tree is bound exactly when no placeholder occurs in it.
* `height_pos`: every tree has a height of at least one.
-/

namespace Criteria

/-- A name that is not bound yet.  With arguments, even none, it stands for a call
and without for a variable. -/
structure Placeholder (α : Type) where
  /-- The namespace segments that the name is written under. -/
  scope : List String
  name : Path
  arguments : Option (List α)

namespace Placeholder

variable {α : Type}

/-- All segments, those of the namespaces first. -/
def fullPath (p : Placeholder α) : List String :=
  p.scope ++ p.name.segments

/-- The arguments; a placeholder for a variable has none. -/
def argumentList (p : Placeholder α) : List α :=
  p.arguments.getD []

def isCall (p : Placeholder α) : Bool :=
  p.arguments.isSome

end Placeholder

/-- The tree of a condition. -/
inductive Expr where
  | constant (c : Constant Expr)
  | placeholder (p : Placeholder Expr)
  /-- A variable with the path it was bound from. -/
  | variable (path : Path) (template : VariableTemplate)
  /-- A call with the path it was bound from. -/
  | call (path : Path) (template : FunctionTemplate Expr) (arguments : List Expr)
  | not (operand : Expr)
  | binary (op : BinaryOp) (left right : Expr)

namespace Expr

instance : Inhabited Expr := ⟨constant (.string "")⟩

abbrev string (s : String) : Expr :=
  constant (.string s)

abbrev number (d : Decimal) : Expr :=
  constant (.number d)

/-- A set literal with exactly these members. -/
abbrev set (members : List Expr) : Expr :=
  constant (.set members)

section Shape

/-- The expressions directly inside, in the order of evaluation. -/
def children : Expr → List Expr
  | .constant (.set members) => members
  | .constant (.string _) => []
  | .constant (.number _) => []
  | .placeholder p => p.argumentList
  | .variable _ _ => []
  | .call _ _ arguments => arguments
  | .not operand => [operand]
  | .binary _ left right => [left, right]

def isLeaf (e : Expr) : Bool :=
  e.children.isEmpty

/-- Whether an expression is a set literal. -/
def isSet : Expr → Bool
  | .constant (.set _) => true
  | _ => false

/-- Whether an expression is a negation or a binary operation. -/
def isOperation : Expr → Bool
  | .not _ => true
  | .binary _ _ _ => true
  | _ => false

def isOperand (e : Expr) : Bool :=
  !e.isOperation

def constant? : Expr → Option (Constant Expr)
  | .constant c => some c
  | _ => none

end Shape

mutual

/-- The placeholders of a tree, a call before its arguments. -/
def placeholders : Expr → List (Placeholder Expr)
  | .constant (.set members) => placeholdersAll members
  | .constant (.string _) => []
  | .constant (.number _) => []
  | .placeholder ⟨scope, name, none⟩ => [⟨scope, name, none⟩]
  | .placeholder ⟨scope, name, some arguments⟩ =>
      ⟨scope, name, some arguments⟩ :: placeholdersAll arguments
  | .variable _ _ => []
  | .call _ _ arguments => placeholdersAll arguments
  | .not operand => placeholders operand
  | .binary _ left right => placeholders left ++ placeholders right

/-- The placeholders of the trees of a list. -/
def placeholdersAll : List Expr → List (Placeholder Expr)
  | [] => []
  | e :: es => placeholders e ++ placeholdersAll es

end

mutual

/-- Whether a tree is free of placeholders. -/
def isBound : Expr → Bool
  | .constant (.set members) => isBoundAll members
  | .constant (.string _) => true
  | .constant (.number _) => true
  | .placeholder _ => false
  | .variable _ _ => true
  | .call _ _ arguments => isBoundAll arguments
  | .not operand => isBound operand
  | .binary _ left right => isBound left && isBound right

/-- Whether all trees of a list are free of placeholders. -/
def isBoundAll : List Expr → Bool
  | [] => true
  | e :: es => isBound e && isBoundAll es

end

mutual

/-- The number of trees on the longest way from the root to a leaf. -/
def height : Expr → Nat
  | .constant (.set members) => heightAll members + 1
  | .constant (.string _) => 1
  | .constant (.number _) => 1
  | .placeholder ⟨_, _, none⟩ => 1
  | .placeholder ⟨_, _, some arguments⟩ => heightAll arguments + 1
  | .variable _ _ => 1
  | .call _ _ arguments => heightAll arguments + 1
  | .not operand => height operand + 1
  | .binary _ left right => max (height left) (height right) + 1

/-- The greatest height in a list of trees; zero for the empty list. -/
def heightAll : List Expr → Nat
  | [] => 0
  | e :: es => max (height e) (heightAll es)

end

section Laws

theorem height_pos : ∀ e : Expr, 0 < height e
  | .constant (.set _) => by simp [height]
  | .constant (.string _) => by simp [height]
  | .constant (.number _) => by simp [height]
  | .placeholder ⟨_, _, none⟩ => by simp [height]
  | .placeholder ⟨_, _, some _⟩ => by simp [height]
  | .variable _ _ => by simp [height]
  | .call _ _ _ => by simp [height]
  | .not _ => by simp [height]
  | .binary _ _ _ => by simp [height]

mutual

theorem isBound_iff : ∀ e : Expr, isBound e = true ↔ placeholders e = []
  | .constant (.set members) => by
      simpa [isBound, placeholders] using isBoundAll_iff members
  | .constant (.string _) => by simp [isBound, placeholders]
  | .constant (.number _) => by simp [isBound, placeholders]
  | .placeholder ⟨_, _, none⟩ => by simp [isBound, placeholders]
  | .placeholder ⟨_, _, some _⟩ => by simp [isBound, placeholders]
  | .variable _ _ => by simp [isBound, placeholders]
  | .call _ _ arguments => by
      simpa [isBound, placeholders] using isBoundAll_iff arguments
  | .not operand => by
      simpa [isBound, placeholders] using isBound_iff operand
  | .binary _ left right => by
      simp [isBound, placeholders, isBound_iff left, isBound_iff right]

theorem isBoundAll_iff :
    ∀ es : List Expr, isBoundAll es = true ↔ placeholdersAll es = []
  | [] => by simp [isBoundAll, placeholdersAll]
  | e :: es => by
      simp [isBoundAll, placeholdersAll, isBound_iff e, isBoundAll_iff es]

end

end Laws

end Expr

end Criteria
