import Criteria.Distinct
import Criteria.Kind
import Criteria.Decimal
import Criteria.Text.Quote

/-!
# Values

What a tree evaluates to: a truth value, a number, a text or a set.  A set that is
built from members drops duplicates and refuses sets as members; a set that an
application hands over as it is may break both rules, and is compared all the same.

Two sets are equal when they are of one length and each member of the first occurs
in the second.  In this test the member of the second set is the left operand, which
matters only for sets that break the rules.

**Results.**
* `beq_set`: what equality of two sets asks for.
* `beq_of_kind_ne`: values of different kinds are different.
-/

namespace Criteria

inductive Value where
  | boolean (b : Bool)
  | number (n : Decimal)
  | string (s : String)
  | set (members : List Value)

namespace Value

instance : Inhabited Value := ⟨boolean false⟩

def kind : Value → Kind
  | boolean _ => .boolean
  | number _ => .number
  | string _ => .string
  | set _ => .set

def isSet : Value → Bool
  | set _ => true
  | _ => false

def boolean? : Value → Option Bool
  | boolean b => some b
  | _ => none

def number? : Value → Option Decimal
  | number n => some n
  | _ => none

def string? : Value → Option String
  | string s => some s
  | _ => none

def set? : Value → Option (List Value)
  | set members => some members
  | _ => none

section Equality

mutual

/-- Whether the first value equals the second. -/
def same : Value → Value → Bool
  | .boolean a, .boolean b => a == b
  | .number a, .number b => a == b
  | .string a, .string b => a == b
  | .set members, .set others =>
      members.length == others.length && occurIn members others
  | _, _ => false
termination_by structural v => v

/-- Whether the second value equals the first. -/
def isSameAs : Value → Value → Bool
  | .boolean a, .boolean b => b == a
  | .number a, .number b => b == a
  | .string a, .string b => b == a
  | .set members, .set others =>
      others.length == members.length && others.all (fun o => holds members o)
  | _, _ => false
termination_by structural v => v

/-- Whether each of the values equals one of the others. -/
def occurIn : List Value → List Value → Bool
  | [], _ => true
  | v :: vs, others => others.any (fun o => isSameAs v o) && occurIn vs others
termination_by structural vs => vs

/-- Whether one of the values equals the given one. -/
def holds : List Value → Value → Bool
  | [], _ => false
  | v :: vs, other => same v other || holds vs other
termination_by structural vs => vs

end

instance : BEq Value := ⟨same⟩

/-- Whether a set has a member that equals the value; other values have none. -/
def contains (container v : Value) : Bool :=
  match container with
  | set members => members.any (· == v)
  | _ => false

end Equality

/-- The set of distinct members, or the first member that is itself a set. -/
def ofMembers (members : List Value) : Except Value Value :=
  (Distinct.collect isSet members).map set

section Text

mutual

/-- The text of a value. -/
def render : Value → String
  | .boolean b => if b then "true" else "false"
  | .number n => n.render
  | .string s => Text.shown s
  | .set members => "\x7b" ++ renderList members ++ "\x7d"

/-- The texts of values between commas. -/
def renderList : List Value → String
  | [] => ""
  | v :: vs => v.render ++ renderMore vs

/-- The texts of values after the first. -/
def renderMore : List Value → String
  | [] => ""
  | v :: vs => ", " ++ v.render ++ renderMore vs

end

end Text

section Laws

theorem any_congr_mem {p q : Value → Bool} :
    ∀ {vs : List Value}, (∀ v ∈ vs, p v = q v) → vs.any p = vs.any q
  | [], _ => rfl
  | v :: vs, h => by
      rw [List.any_cons, List.any_cons, h v List.mem_cons_self,
        any_congr_mem fun w hw => h w (List.mem_cons_of_mem v hw)]

theorem all_congr_mem {p q : Value → Bool} :
    ∀ {vs : List Value}, (∀ v ∈ vs, p v = q v) → vs.all p = vs.all q
  | [], _ => rfl
  | v :: vs, h => by
      rw [List.all_cons, List.all_cons, h v List.mem_cons_self,
        all_congr_mem fun w hw => h w (List.mem_cons_of_mem v hw)]

theorem holds_eq_any (members : List Value) (other : Value) :
    holds members other = members.any (fun m => same m other) := by
  induction members with
  | nil => rfl
  | cons v vs ih => rw [List.any_cons, ← ih, holds]

theorem occurIn_eq_all (members others : List Value) :
    occurIn members others =
      members.all (fun v => others.any (fun o => isSameAs v o)) := by
  induction members with
  | nil => rfl
  | cons v vs ih => rw [List.all_cons, ← ih, occurIn]

mutual

theorem isSameAs_swap :
    ∀ a b : Value, isSameAs a b = same b a ∧ isSameAs b a = same a b
  | .boolean _, b => by cases b <;> exact ⟨rfl, rfl⟩
  | .number _, b => by cases b <;> exact ⟨rfl, rfl⟩
  | .string _, b => by cases b <;> exact ⟨rfl, rfl⟩
  | .set members, b => by
      have ih := isSameAs_swapAll members
      cases b with
      | boolean _ => exact ⟨rfl, rfl⟩
      | number _ => exact ⟨rfl, rfl⟩
      | string _ => exact ⟨rfl, rfl⟩
      | set others =>
          have first : ∀ o ∈ others,
              holds members o = members.any (fun v => isSameAs o v) := by
            intro o _
            rw [holds_eq_any]
            exact any_congr_mem fun v hv => ((ih v hv o).2).symm
          have second : ∀ v ∈ members,
              holds others v = others.any (fun o => isSameAs v o) := by
            intro v hv
            rw [holds_eq_any]
            exact any_congr_mem fun o _ => ((ih v hv o).1).symm
          constructor
          · rw [isSameAs, same, occurIn_eq_all, all_congr_mem first]
          · rw [isSameAs, same, occurIn_eq_all, all_congr_mem second]

theorem isSameAs_swapAll :
    ∀ (vs : List Value) (v : Value), v ∈ vs →
      ∀ b, isSameAs v b = same b v ∧ isSameAs b v = same v b
  | [], _, h => absurd h List.not_mem_nil
  | w :: ws, v, h => by
      intro b
      rcases List.mem_cons.mp h with h | h
      · rw [h]
        exact isSameAs_swap w b
      · exact isSameAs_swapAll ws v h b

end

theorem beq_set (members others : List Value) :
    (set members == set others) =
      (members.length == others.length && members.all (set others).contains) := by
  show (members.length == others.length && occurIn members others) = _
  rw [occurIn_eq_all]
  congr 1
  exact all_congr_mem fun v _ => any_congr_mem fun o _ => (isSameAs_swap v o).1

theorem beq_of_kind_ne
    {a b : Value} (h : a.kind ≠ b.kind) :
    (a == b) = false := by
  cases a <;> cases b <;> first | rfl | exact absurd rfl h

end Laws

end Value

end Criteria
