import Criteria.Expr.Basic

/-!
# Equality of expressions

Two trees are equal when they are built alike, with two freedoms: numbers compare
by value and set literals by their members, whatever their order.  A set literal
equals another of the same length when each of its members has an equal one in the
other; since the members of a literal are distinct, this is the equality of sets.

In this test the member of the other literal is the left operand, so the parts of a
literal are compared the other way round.  A literal may stand anywhere in a tree, and
there may be others inside it.  So trees are compared in both ways at once: the
recursion goes through the first tree, and it says which of the two is the left one.
-/

namespace Criteria

namespace Expr

mutual

/-- Whether the first tree equals the second or, turned, the second equals the first. -/
def equals (turned : Bool) : Expr → Expr → Bool
  | .constant c, .constant d => equalsConstant turned c d
  | .placeholder ⟨scope, name, none⟩, .placeholder ⟨scope', name', none⟩ =>
      scope == scope' && name == name'
  | .placeholder ⟨scope, name, some arguments⟩,
      .placeholder ⟨scope', name', some arguments'⟩ =>
      scope == scope' && name == name' && equalsAll turned arguments arguments'
  | .variable path template, .variable path' template' =>
      path == path' && template == template'
  | .call path template arguments, .call path' template' arguments' =>
      path == path' && equalsTemplate turned template template' &&
        equalsAll turned arguments arguments'
  | .not operand, .not operand' => equals turned operand operand'
  | .binary op left right, .binary op' left' right' =>
      op == op' && equals turned left left' && equals turned right right'
  | _, _ => false
termination_by structural e => e

/-- Whether two lists of trees are equal place by place. -/
def equalsAll (turned : Bool) : List Expr → List Expr → Bool
  | [], [] => true
  | e :: es, e' :: es' => equals turned e e' && equalsAll turned es es'
  | _, _ => false
termination_by structural es => es

/-- Whether each of the trees has one among the others that equals it. -/
def occurIn : List Expr → List Expr → Bool
  | [], _ => true
  | e :: es, others => others.any (fun o => equals true e o) && occurIn es others
termination_by structural es => es

/-- Whether one of the trees equals the given one. -/
def holds : List Expr → Expr → Bool
  | [], _ => false
  | e :: es, other => equals false e other || holds es other
termination_by structural es => es

/-- Whether two constants are equal. -/
def equalsConstant (turned : Bool) : Constant Expr → Constant Expr → Bool
  | .string s, .string s' => s == s'
  | .number n, .number n' => if turned then n' == n else n == n'
  | .set members, .set members' =>
      members.length == members'.length &&
        if turned then members'.all (fun o => holds members o) else occurIn members members'
  | _, _ => false
termination_by structural c => c

/-- Whether two function templates are equal. -/
def equalsTemplate (turned : Bool) : FunctionTemplate Expr → FunctionTemplate Expr → Bool
  | ⟨name, required, optional, returns⟩, ⟨name', required', optional', returns'⟩ =>
      name == name' && required == required' && equalsOptional turned optional optional' &&
        returns == returns'
termination_by structural t => t

/-- Whether two lists of optional parameters are equal place by place. -/
def equalsOptional (turned : Bool) :
    List (Parameter × Constant Expr) → List (Parameter × Constant Expr) → Bool
  | [], [] => true
  | (p, c) :: rest, (p', c') :: rest' =>
      p == p' && equalsConstant turned c c' && equalsOptional turned rest rest'
  | _, _ => false
termination_by structural ps => ps

end

/-- Whether two trees are equal. -/
def same (e e' : Expr) : Bool :=
  equals false e e'

instance : BEq Expr := ⟨same⟩

instance : BEq (Constant Expr) := ⟨equalsConstant false⟩

instance : BEq (FunctionTemplate Expr) := ⟨equalsTemplate false⟩

end Expr

end Criteria
