import Criteria.Expr.Build
import Criteria.Proofs.Distinct
import Criteria.Proofs.Subtrees
import Mathlib.Data.List.Forall2
import Mathlib.Tactic.Ring

/-!
# Equality is an equivalence

The comparison of two set literals asks only that they are as long as each other and
that each member of the first has an equal one in the second.  Among trees whose set
literals have been built, which have no two equal members, this is an equivalence all the
same.  Equal trees are alike in what they hold.

**Results.**
* `equals_turned`: to compare turned is to compare the other way round.
* `same_iff_matches`: how two equal trees are built.
* `same_refl`, `same_symm`, `same_trans`: equality of trees is an equivalence.
* `cover_of_same`: of two equal set literals each covers the other.
* `isBound_of_same`: of two equal trees both are free of placeholders, or neither.
-/

namespace Criteria

theorem Decimal.beq_trans {a b c : Decimal} (h : (a == b) = true) (h' : (b == c) = true) :
    (a == c) = true := by
  rw [Decimal.beq_iff, Decimal.scaled, Decimal.scaled] at h h' ⊢
  have hpos : Int.pow 10 b.scale ≠ 0 := pow_ne_zero b.scale (show (10 : Int) ≠ 0 by decide)
  apply mul_right_cancel₀ hpos
  calc
    a.mantissa * Int.pow 10 c.scale * Int.pow 10 b.scale
        = a.mantissa * Int.pow 10 b.scale * Int.pow 10 c.scale := by ring
    _ = b.mantissa * Int.pow 10 c.scale * Int.pow 10 a.scale := by rw [h]; ring
    _ = c.mantissa * Int.pow 10 a.scale * Int.pow 10 b.scale := by rw [h']; ring

section Related

variable {α β γ : Type} {R : α → β → Prop} {S : α → β → Prop} {xs : List α} {ys : List β}

theorem forall₂_imp_of_mem (h : List.Forall₂ R xs ys)
    (himp : ∀ x ∈ xs, ∀ y ∈ ys, R x y → S x y) : List.Forall₂ S xs ys := by
  induction h with
  | nil => exact List.Forall₂.nil
  | cons hxy _ ih =>
      refine List.Forall₂.cons (himp _ List.mem_cons_self _ List.mem_cons_self hxy) ?_
      apply ih
      intro x hx y hy
      exact himp x (List.mem_cons_of_mem _ hx) y (List.mem_cons_of_mem _ hy)

theorem exists_left_of_forall₂ (h : List.Forall₂ R xs ys) {y : β} (hy : y ∈ ys) :
    ∃ x ∈ xs, R x y := by
  induction h with
  | nil => cases hy
  | @cons x y' xs ys hxy _ ih =>
      rcases List.mem_cons.mp hy with rfl | hy
      · exact ⟨x, List.mem_cons_self, hxy⟩
      · obtain ⟨x', hx', hrel⟩ := ih hy
        exact ⟨x', List.mem_cons_of_mem x hx', hrel⟩

theorem forall₂_comp_of_mem {T : β → γ → Prop} {U : α → γ → Prop} {zs : List γ}
    (h : List.Forall₂ R xs ys) (h' : List.Forall₂ T ys zs)
    (hcomp : ∀ x ∈ xs, ∀ y ∈ ys, ∀ z ∈ zs, R x y → T y z → U x z) :
    List.Forall₂ U xs zs := by
  induction h generalizing zs with
  | nil =>
      cases h'
      exact List.Forall₂.nil
  | cons hxy _ ih =>
      cases h' with
      | cons hyz hrest =>
          refine List.Forall₂.cons ?_ (ih hrest ?_)
          · exact hcomp _ List.mem_cons_self _ List.mem_cons_self _ List.mem_cons_self
              hxy hyz
          · intro x hx y hy z hz
            exact hcomp x (List.mem_cons_of_mem _ hx) y (List.mem_cons_of_mem _ hy)
              z (List.mem_cons_of_mem _ hz)

end Related

namespace Expr

section Parts

variable {p e : Expr} {path : Path} {template : FunctionTemplate Expr} {arguments : List Expr}

/-- The trees that make up a tree: its children and, in a call, the defaults of its
template. -/
def parts : Expr → List Expr
  | .call _ template arguments => arguments ++ template.defaults.map constant
  | e => e.children

theorem argument_mem_parts (hp : p ∈ arguments) : p ∈ (call path template arguments).parts :=
  List.mem_append_left _ hp

theorem default_mem_parts {x : Parameter × Constant Expr} (hx : x ∈ template.optional) :
    constant x.2 ∈ (call path template arguments).parts :=
  List.mem_append_right arguments (List.mem_map_of_mem (List.mem_map_of_mem hx))

theorem operand_mem_parts (operand : Expr) : operand ∈ (Expr.not operand).parts :=
  List.mem_singleton_self operand

theorem left_mem_parts (op : BinaryOp) (left right : Expr) :
    left ∈ (binary op left right).parts :=
  List.mem_cons_self

theorem right_mem_parts (op : BinaryOp) (left right : Expr) :
    right ∈ (binary op left right).parts :=
  List.mem_cons_of_mem left (List.mem_singleton_self right)

/-- The default of a parameter is smaller than the call, and so are all other parts. -/
theorem sizeOf_lt_of_mem_parts (h : p ∈ e.parts) : sizeOf p < sizeOf e := by
  match e with
  | .constant (.string _) => cases h
  | .constant (.number _) => cases h
  | .constant (.set members) =>
      have hsize : sizeOf p < sizeOf members := List.sizeOf_lt_of_mem h
      simp only [constant.sizeOf_spec, Constant.set.sizeOf_spec]
      omega
  | .placeholder ⟨_, _, none⟩ => cases h
  | .placeholder ⟨_, _, some arguments⟩ =>
      have hsize : sizeOf p < sizeOf arguments := List.sizeOf_lt_of_mem h
      simp only [placeholder.sizeOf_spec, Placeholder.mk.sizeOf_spec, Option.some.sizeOf_spec]
      omega
  | .variable _ _ => cases h
  | .call path ⟨name, required, optional, returns⟩ arguments =>
      rcases List.mem_append.mp h with harguments | hdefaults
      · have hsize : sizeOf p < sizeOf arguments := List.sizeOf_lt_of_mem harguments
        simp only [call.sizeOf_spec]
        omega
      · obtain ⟨c, hc, rfl⟩ := List.mem_map.mp hdefaults
        obtain ⟨x, hx, rfl⟩ := List.mem_map.mp hc
        have hsize : sizeOf x < sizeOf optional := List.sizeOf_lt_of_mem hx
        have hpair : sizeOf x = 1 + sizeOf x.1 + sizeOf x.2 := rfl
        simp only [constant.sizeOf_spec, call.sizeOf_spec, FunctionTemplate.mk.sizeOf_spec]
        omega
  | .not operand =>
      obtain rfl := List.mem_singleton.mp h
      simp only [not.sizeOf_spec]
      omega
  | .binary op left right =>
      simp only [binary.sizeOf_spec]
      rcases List.mem_cons.mp h with rfl | hright
      · omega
      · obtain rfl := List.mem_singleton.mp hright
        omega

/-- What passes from the parts of every tree to the tree holds of all trees. -/
@[elab_as_elim]
theorem part_induction {motive : Expr → Prop}
    (node : ∀ e, (∀ p ∈ e.parts, motive p) → motive e) (e : Expr) : motive e :=
  node e fun p _ => part_induction node p
termination_by sizeOf e
decreasing_by exact sizeOf_lt_of_mem_parts ‹_›

/-- A relation between trees may be shown from that between their parts, in both orders: the
induction goes down one tree, and the other one is any tree. -/
theorem pair_induction {motive : Expr → Expr → Prop}
    (node : ∀ x y, (∀ p ∈ x.parts, ∀ q ∈ y.parts, motive p q ∧ motive q p) → motive x y)
    (x y : Expr) : motive x y := by
  have hboth : motive x y ∧ motive y x := by
    induction x using part_induction generalizing y with
    | node x ih =>
        constructor
        · exact node x y fun p hp q _ => ih p hp q
        · exact node y x fun q _ p hp => (ih p hp q).symm
  exact hboth.1

end Parts

/-- The members of a set literal are distinct and none is a set literal, as the way to
build one makes sure; other nodes ask for nothing. -/
def BuiltHere : Expr → Prop
  | .constant (.set members) =>
      Distinct.Apart members ∧ ∀ m ∈ members, m.isSet = false
  | _ => True

/-- Every set literal in a tree is one that can be built, in the defaults of its templates
too. -/
inductive Built : Expr → Prop
  | node {e : Expr} : e.BuiltHere → (∀ p ∈ e.parts, Built p) → Built e

section Built

variable {e : Expr}

theorem Built.part (h : e.Built) {p : Expr} (hp : p ∈ e.parts) : p.Built := by
  cases h with
  | node _ hparts => exact hparts p hp

/-- A tree without parts has been built. -/
theorem built_leaf (h : e.parts = []) : e.Built := by
  refine Built.node ?_ (by simp [h])
  match e with
  | .constant (.set members) =>
      have hempty : members = [] := h
      rw [hempty]
      exact ⟨List.Pairwise.nil, by simp⟩
  | .constant (.string _) => trivial
  | .constant (.number _) => trivial
  | .placeholder _ => trivial
  | .variable _ _ => trivial
  | .call _ _ _ => trivial
  | .not _ => trivial
  | .binary _ _ _ => trivial

theorem built_number (d : Decimal) : (number d).Built :=
  built_leaf rfl

section Nodes

variable {operand left right : Expr} {arguments : List Expr}

theorem built_placeholder {p : Placeholder Expr} (h : ∀ a ∈ p.argumentList, a.Built) :
    (placeholder p).Built :=
  Built.node trivial h

theorem built_call {path : Path} {template : FunctionTemplate Expr}
    (harguments : ∀ a ∈ arguments, a.Built)
    (hdefaults : ∀ c ∈ template.defaults, (constant c).Built) :
    (call path template arguments).Built := by
  refine Built.node trivial (List.forall_mem_append.mpr ⟨harguments, ?_⟩)
  exact List.forall_mem_map.mpr hdefaults

theorem built_not (h : operand.Built) : (not operand).Built :=
  Built.node trivial (List.forall_mem_singleton.mpr h)

theorem built_binary (op : BinaryOp) (hl : left.Built) (hr : right.Built) :
    (binary op left right).Built :=
  Built.node trivial (List.forall_mem_cons.mpr ⟨hl, List.forall_mem_singleton.mpr hr⟩)

end Nodes

theorem Built.here (h : e.Built) : e.BuiltHere := by
  cases h with
  | node hhere _ => exact hhere

end Built

section Turning

variable {es os : List Expr}

/-- Comparing a tree turned is comparing the other way round. -/
def TurnsAround (e : Expr) : Prop :=
  ∀ turned o, equals turned e o = equals (!turned) o e

theorem occurIn_iff :
    occurIn es os = true ↔ ∀ e ∈ es, ∃ o ∈ os, equals true e o = true := by
  induction es with
  | nil => simp [occurIn]
  | cons e es ih => simp [occurIn, ih]

theorem holds_iff {o : Expr} : holds es o = true ↔ ∃ e ∈ es, equals false e o = true := by
  induction es with
  | nil => simp [holds]
  | cons e es ih => simp [holds, ih]

theorem equalsAll_turned (h : ∀ e ∈ es, TurnsAround e) (turned : Bool) :
    equalsAll turned es os = equalsAll (!turned) os es := by
  induction es generalizing os with
  | nil => cases os <;> rfl
  | cons e es ih =>
      cases os with
      | nil => rfl
      | cons o os =>
          have hrest := @ih os fun e' he' => h e' (List.mem_cons_of_mem e he')
          rw [equalsAll, equalsAll, h e List.mem_cons_self turned o, hrest]

/-- What is asked of the members of two literals, from the one side and from the other. -/
theorem occurIn_eq_all_holds (h : ∀ e ∈ es, TurnsAround e) :
    occurIn es os = es.all (fun e => holds os e) := by
  rw [Bool.eq_iff_iff, occurIn_iff, List.all_eq_true]
  refine forall₂_congr fun e he => ?_
  rw [holds_iff]
  exact exists_congr fun o => and_congr_right fun _ => by rw [h e he true o, Bool.not_true]

theorem all_holds_eq_occurIn (h : ∀ e ∈ es, TurnsAround e) :
    os.all (fun o => holds es o) = occurIn os es := by
  rw [Bool.eq_iff_iff, occurIn_iff, List.all_eq_true]
  refine forall₂_congr fun o _ => ?_
  rw [holds_iff]
  exact exists_congr fun e => and_congr_right fun he => by rw [h e he false o, Bool.not_false]

theorem equalsConstant_turned {c : Constant Expr} (h : ∀ e ∈ (constant c).parts, TurnsAround e)
    (turned : Bool) (d : Constant Expr) :
    equalsConstant turned c d = equalsConstant (!turned) d c := by
  cases c with
  | string s => cases d <;> simp [equalsConstant, Bool.beq_comm]
  | number n => cases d <;> cases turned <;> rfl
  | set members =>
      cases d with
      | string s => rfl
      | number n => rfl
      | set others =>
          have hmembers : ∀ m ∈ members, TurnsAround m := h
          have hlength : (members.length == others.length) = (others.length == members.length) :=
            Bool.beq_comm
          cases turned with
          | false => simp [equalsConstant, hlength, occurIn_eq_all_holds hmembers]
          | true => simp [equalsConstant, hlength, all_holds_eq_occurIn hmembers]

theorem equalsOptional_turned {ps : List (Parameter × Constant Expr)}
    (h : ∀ x ∈ ps, TurnsAround (constant x.2)) (turned : Bool)
    (qs : List (Parameter × Constant Expr)) :
    equalsOptional turned ps qs = equalsOptional (!turned) qs ps := by
  induction ps generalizing qs with
  | nil => cases qs <;> rfl
  | cons x ps ih =>
      obtain ⟨p, c⟩ := x
      cases qs with
      | nil => rfl
      | cons y qs =>
          obtain ⟨q, d⟩ := y
          have hfirst : equalsConstant turned c d = equalsConstant (!turned) d c :=
            h (p, c) List.mem_cons_self turned (constant d)
          have hrest := ih (fun x hx => h x (List.mem_cons_of_mem _ hx)) qs
          have hparameter : (p == q) = (q == p) := Bool.beq_comm
          rw [equalsOptional, equalsOptional, hfirst, hrest, hparameter]

theorem equalsTemplate_turned {t : FunctionTemplate Expr}
    (h : ∀ x ∈ t.optional, TurnsAround (constant x.2)) (turned : Bool)
    (t' : FunctionTemplate Expr) :
    equalsTemplate turned t t' = equalsTemplate (!turned) t' t := by
  obtain ⟨name, required, optional, returns⟩ := t
  obtain ⟨name', required', optional', returns'⟩ := t'
  simp [equalsTemplate, Bool.beq_comm, equalsOptional_turned h turned optional']

/-- To compare turned is to compare the other way round. -/
theorem equals_turned (e : Expr) : TurnsAround e := by
  induction e using part_induction with
  | node e ih =>
      intro turned o
      cases e with
      | constant c =>
          cases o with
          | constant d => exact equalsConstant_turned ih turned d
          | _ => simp [equals]
      | placeholder p =>
          obtain ⟨scope, name, _ | arguments⟩ := p
          · cases o with
            | placeholder q =>
                obtain ⟨scope', name', _ | arguments'⟩ := q
                · simp [equals, Bool.beq_comm]
                · rfl
            | _ => simp [equals]
          · cases o with
            | placeholder q =>
                obtain ⟨scope', name', _ | arguments'⟩ := q
                · rfl
                · have harguments : ∀ a ∈ arguments, TurnsAround a := ih
                  simp [equals, Bool.beq_comm, equalsAll_turned harguments turned]
            | _ => simp [equals]
      | «variable» path template =>
          cases o with
          | «variable» path' template' => simp [equals, Bool.beq_comm]
          | _ => simp [equals]
      | call path template arguments =>
          cases o with
          | call path' template' arguments' =>
              have hdefaults := equalsTemplate_turned (fun x hx => ih _ (default_mem_parts hx))
                turned template'
              have harguments := @equalsAll_turned _ arguments'
                (fun a ha => ih a (argument_mem_parts ha)) turned
              simp [equals, Bool.beq_comm, hdefaults, harguments]
          | _ => simp [equals]
      | not operand =>
          cases o with
          | not operand' => exact ih operand (operand_mem_parts operand) turned operand'
          | _ => simp [equals]
      | binary op left right =>
          cases o with
          | binary op' left' right' =>
              have hleft := ih left (left_mem_parts op left right) turned left'
              have hright := ih right (right_mem_parts op left right) turned right'
              simp [equals, Bool.beq_comm, hleft, hright]
          | _ => simp [equals]

end Turning

section Comparison

theorem equalsAll_iff {es es' : List Expr} :
    equalsAll false es es' = true ↔ List.Forall₂ (fun e e' => same e e' = true) es es' := by
  induction es generalizing es' with
  | nil => cases es' <;> simp [equalsAll]
  | cons e es ih => cases es' <;> simp [equalsAll, same, ih]

/-- Two optional parameters are declared alike and have equal defaults. -/
def SameOptional (x y : Parameter × Constant Expr) : Prop :=
  x.1 = y.1 ∧ same (constant x.2) (constant y.2) = true

theorem equalsOptional_iff {ps ps' : List (Parameter × Constant Expr)} :
    equalsOptional false ps ps' = true ↔ List.Forall₂ SameOptional ps ps' := by
  induction ps generalizing ps' with
  | nil => cases ps' <;> simp [equalsOptional]
  | cons p ps ih =>
      obtain ⟨p, c⟩ := p
      cases ps' <;> simp [equalsOptional, SameOptional, same, equals, ih]

theorem sameTemplate_iff {t t' : FunctionTemplate Expr} :
    (t == t') = true ↔
      (t.qualifiedName = t'.qualifiedName ∧ t.required = t'.required ∧
        t.returns = t'.returns) ∧
        List.Forall₂ SameOptional t.optional t'.optional := by
  obtain ⟨name, required, optional, returns⟩ := t
  obtain ⟨name', required', optional', returns'⟩ := t'
  show equalsTemplate false _ _ = true ↔ _
  simp only [equalsTemplate, Bool.and_eq_true, beq_iff_eq, equalsOptional_iff]
  constructor
  · rintro ⟨⟨⟨hn, hq⟩, ho⟩, hr⟩
    exact ⟨⟨hn, hq, hr⟩, ho⟩
  · rintro ⟨⟨hn, hq, hr⟩, ho⟩
    exact ⟨⟨⟨hn, hq⟩, ho⟩, hr⟩

theorem beq_set (members members' : List Expr) :
    (set members == set members') = true ↔
      members.length = members'.length ∧
        ∀ m ∈ members, ∃ m' ∈ members', (m' == m) = true := by
  show (members.length == members'.length && occurIn members members') = true ↔ _
  rw [Bool.and_eq_true, beq_iff_eq, occurIn_iff]
  refine and_congr_right fun _ => forall₂_congr fun m _ => exists_congr fun m' => ?_
  rw [equals_turned m true m']
  rfl

/-- How two equal trees are built. -/
inductive Matches : Expr → Expr → Prop
  | string (s : String) : Matches (.string s) (.string s)
  | number {d d' : Decimal} (h : (d == d') = true) : Matches (.number d) (.number d')
  | set {members members' : List Expr}
      (length : members.length = members'.length)
      (cover : ∀ m ∈ members, ∃ m' ∈ members', same m' m = true) :
      Matches (.set members) (.set members')
  | name (scope : List String) (name : Path) :
      Matches (.placeholder ⟨scope, name, none⟩) (.placeholder ⟨scope, name, none⟩)
  | request (scope : List String) (name : Path) {arguments arguments' : List Expr}
      (h : List.Forall₂ (fun e e' => same e e' = true) arguments arguments') :
      Matches (.placeholder ⟨scope, name, some arguments⟩)
        (.placeholder ⟨scope, name, some arguments'⟩)
  | variable (path : Path) (template : VariableTemplate) :
      Matches (.variable path template) (.variable path template)
  | call (path : Path) {template template' : FunctionTemplate Expr}
      {arguments arguments' : List Expr}
      (ht : (template == template') = true)
      (h : List.Forall₂ (fun e e' => same e e' = true) arguments arguments') :
      Matches (.call path template arguments) (.call path template' arguments')
  | not {operand operand' : Expr} (h : same operand operand' = true) :
      Matches (.not operand) (.not operand')
  | binary (op : BinaryOp) {left left' right right' : Expr}
      (hl : same left left' = true) (hr : same right right' = true) :
      Matches (.binary op left right) (.binary op left' right')

theorem same_iff_matches {e e' : Expr} : same e e' = true ↔ Matches e e' := by
  constructor
  · intro h
    unfold same equals at h
    split at h
    · next c c' =>
        unfold equalsConstant at h
        split at h
        · rw [beq_iff_eq] at h
          exact h ▸ Matches.string _
        · exact Matches.number h
        · obtain ⟨length, cover⟩ := (beq_set _ _).mp h
          exact Matches.set length cover
        · cases h
    · simp only [Bool.and_eq_true, beq_iff_eq] at h
      obtain ⟨rfl, rfl⟩ := h
      exact Matches.name _ _
    · simp only [Bool.and_eq_true, beq_iff_eq, equalsAll_iff] at h
      obtain ⟨⟨rfl, rfl⟩, h⟩ := h
      exact Matches.request _ _ h
    · simp only [Bool.and_eq_true, beq_iff_eq] at h
      obtain ⟨rfl, rfl⟩ := h
      exact Matches.variable _ _
    · simp only [Bool.and_eq_true, beq_iff_eq, equalsAll_iff] at h
      obtain ⟨⟨rfl, ht⟩, h⟩ := h
      exact Matches.call _ ht h
    · exact Matches.not h
    · simp only [Bool.and_eq_true, beq_iff_eq] at h
      obtain ⟨⟨rfl, hl⟩, hr⟩ := h
      exact Matches.binary _ hl hr
    · cases h
  · intro h
    cases h with
    | string s => simp [same, equals, equalsConstant]
    | number h => simpa [same, equals, equalsConstant] using h
    | set length cover => exact (beq_set _ _).mpr ⟨length, cover⟩
    | name scope name => simp [same, equals]
    | request scope name h => simpa [same, equals] using equalsAll_iff.mpr h
    | «variable» path template => simp [same, equals]
    | call path ht h => simpa [same, equals] using ⟨ht, equalsAll_iff.mpr h⟩
    | not h => simpa [same, equals] using h
    | binary op hl hr => simpa [same, equals] using ⟨hl, hr⟩

end Comparison

section Equivalence

variable {a b c : Expr}

theorem same_refl (ha : a.Built) : same a a = true := by
  induction ha with
  | @node e _ _ ih =>
      have hall {es : List Expr} (hes : ∀ p ∈ es, p ∈ e.parts) :
          List.Forall₂ (fun x y => same x y = true) es es :=
        List.forall₂_same.mpr fun p hp => ih p (hes p hp)
      rw [same_iff_matches]
      match e with
      | .constant (.string s) => exact Matches.string s
      | .constant (.number d) => exact Matches.number d.beq_refl
      | .constant (.set members) =>
          exact Matches.set rfl fun m hm => ⟨m, hm, ih m hm⟩
      | .placeholder ⟨scope, name, none⟩ => exact Matches.name scope name
      | .placeholder ⟨scope, name, some arguments⟩ =>
          exact Matches.request scope name (hall fun _ hp => hp)
      | .variable path template => exact Matches.variable path template
      | .call path template arguments =>
          refine Matches.call path ?_ (hall fun _ hp => argument_mem_parts hp)
          rw [sameTemplate_iff]
          refine ⟨⟨rfl, rfl, rfl⟩, List.forall₂_same.mpr ?_⟩
          intro x hx
          exact ⟨rfl, ih _ (default_mem_parts hx)⟩
      | .not operand => exact Matches.not (ih operand (operand_mem_parts operand))
      | .binary op left right =>
          exact Matches.binary op (ih left (left_mem_parts op left right))
            (ih right (right_mem_parts op left right))

section Nodes

variable {U : Expr → Prop} (laws : Distinct.Lawful U)
include laws

/-- A set literal that is met by another of the same length meets it: two of its members
cannot equal the same one. -/
theorem cover_symm {members members' : List Expr} (hmembers : ∀ m ∈ members, U m)
    (hmembers' : ∀ m' ∈ members', U m') (hapart : Distinct.Apart members)
    (hlength : members.length = members'.length)
    (hcover : ∀ m ∈ members, ∃ m' ∈ members', same m' m = true) :
    ∀ m' ∈ members', ∃ m ∈ members, same m m' = true := by
  have hcovered : ∀ m ∈ members, ∃ m' ∈ members', same m m' = true := by
    intro m hm
    obtain ⟨m', hm', hsame⟩ := hcover m hm
    exact ⟨m', hm', laws.symm (hmembers' m' hm') (hmembers m hm) hsame⟩
  apply Distinct.exists_of_mem_right hlength.ge hcovered
  refine List.Pairwise.imp_of_mem ?_ hapart
  intro m n hm hn hne m' hm' hmm' hnm'
  have hm'n : same m' n = true := laws.symm (hmembers n hn) (hmembers' m' hm') hnm'
  have hmn : same m n = true :=
    laws.trans (hmembers m hm) (hmembers' m' hm') (hmembers n hn) hmm' hm'n
  exact Bool.eq_false_iff.mp hne hmn

/-- Trees that match do so the other way round, if equality can be turned around among
their parts. -/
theorem Matches.symm (h : Matches a b) (hhere : a.BuiltHere) (ha : ∀ p ∈ a.parts, U p)
    (hb : ∀ p ∈ b.parts, U p) : Matches b a := by
  have hsymm : ∀ x ∈ a.parts, ∀ y ∈ b.parts, same x y = true → same y x = true :=
    fun x hx y hy => laws.symm (ha x hx) (hb y hy)
  cases h with
  | string s => exact Matches.string s
  | number h => exact Matches.number (Decimal.beq_comm _ _ ▸ h)
  | set length cover =>
      exact Matches.set length.symm (cover_symm laws ha hb hhere.1 length cover)
  | name scope name => exact Matches.name scope name
  | request scope name h =>
      exact Matches.request scope name (List.Forall₂.flip (forall₂_imp_of_mem h hsymm))
  | «variable» path template => exact Matches.variable path template
  | call path ht h =>
      refine Matches.call path ?_ (List.Forall₂.flip (forall₂_imp_of_mem h ?_))
      · obtain ⟨⟨hn, hq, hr⟩, ho⟩ := sameTemplate_iff.mp ht
        refine sameTemplate_iff.mpr ⟨⟨hn.symm, hq.symm, hr.symm⟩, ?_⟩
        refine List.Forall₂.flip (forall₂_imp_of_mem ho ?_)
        intro x hx y hy hxy
        exact ⟨hxy.1.symm,
          hsymm _ (default_mem_parts hx) _ (default_mem_parts hy) hxy.2⟩
      · intro x hx y hy
        exact hsymm x (argument_mem_parts hx) y (argument_mem_parts hy)
  | not h =>
      exact Matches.not
        (hsymm _ (operand_mem_parts _) _ (operand_mem_parts _) h)
  | binary op hl hr =>
      exact Matches.binary op
        (hsymm _ (left_mem_parts op _ _) _ (left_mem_parts op _ _) hl)
        (hsymm _ (right_mem_parts op _ _) _ (right_mem_parts op _ _) hr)

/-- Matching passes along, if equality does among the parts. -/
theorem Matches.trans (h : Matches a b) (h' : Matches b c) (ha : ∀ p ∈ a.parts, U p)
    (hb : ∀ p ∈ b.parts, U p) (hc : ∀ p ∈ c.parts, U p) : Matches a c := by
  have htrans : ∀ x ∈ a.parts, ∀ y ∈ b.parts, ∀ z ∈ c.parts,
      same x y = true → same y z = true → same x z = true :=
    fun x hx y hy z hz => laws.trans (ha x hx) (hb y hy) (hc z hz)
  cases h with
  | string s => exact h'
  | number h =>
      cases h' with
      | number h' => exact Matches.number (Decimal.beq_trans h h')
  | set length cover =>
      cases h' with
      | set length' cover' =>
          refine Matches.set (length.trans length') ?_
          intro m hm
          obtain ⟨m', hm', hsame⟩ := cover m hm
          obtain ⟨m'', hm'', hsame'⟩ := cover' m' hm'
          exact ⟨m'', hm'', laws.trans (hc m'' hm'') (hb m' hm') (ha m hm) hsame' hsame⟩
  | name scope name => exact h'
  | request scope name h =>
      cases h' with
      | request _ _ h' =>
          exact Matches.request scope name (forall₂_comp_of_mem h h' htrans)
  | «variable» path template => exact h'
  | call path ht h =>
      cases h' with
      | call _ ht' h' =>
          refine Matches.call path ?_ (forall₂_comp_of_mem h h' ?_)
          · obtain ⟨⟨hn, hq, hr⟩, ho⟩ := sameTemplate_iff.mp ht
            obtain ⟨⟨hn', hq', hr'⟩, ho'⟩ := sameTemplate_iff.mp ht'
            refine sameTemplate_iff.mpr
              ⟨⟨hn.trans hn', hq.trans hq', hr.trans hr'⟩, ?_⟩
            apply forall₂_comp_of_mem ho ho'
            intro x hx y hy z hz hxy hyz
            exact ⟨hxy.1.trans hyz.1,
              htrans _ (default_mem_parts hx) _ (default_mem_parts hy) _
                (default_mem_parts hz) hxy.2 hyz.2⟩
          · intro x hx y hy z hz
            exact htrans x (argument_mem_parts hx) y (argument_mem_parts hy) z
              (argument_mem_parts hz)
  | not h =>
      cases h' with
      | not h' =>
          exact Matches.not (htrans _ (operand_mem_parts _) _ (operand_mem_parts _) _
            (operand_mem_parts _) h h')
  | binary op hl hr =>
      cases h' with
      | binary _ hl' hr' =>
          exact Matches.binary op
            (htrans _ (left_mem_parts op _ _) _ (left_mem_parts op _ _) _
              (left_mem_parts op _ _) hl hl')
            (htrans _ (right_mem_parts op _ _) _ (right_mem_parts op _ _) _
              (right_mem_parts op _ _) hr hr')

end Nodes

/-- A set literal compares the members of the other one with its own, so no induction on one
tree reaches all comparisons that are needed; this one is on the size of all trees. -/
theorem lawful_below (n : Nat) : Distinct.Lawful fun e : Expr => e.Built ∧ sizeOf e < n := by
  induction n with
  | zero =>
      exact ⟨fun hx => same_refl hx.1, fun hx => absurd hx.2 (by omega),
        fun hx => absurd hx.2 (by omega)⟩
  | succ n ih =>
      have hparts {e : Expr} (he : e.Built ∧ sizeOf e < n + 1) :
          ∀ p ∈ e.parts, p.Built ∧ sizeOf p < n := by
        intro p hp
        have := sizeOf_lt_of_mem_parts hp
        exact ⟨he.1.part hp, by omega⟩
      refine ⟨fun hx => same_refl hx.1, ?_, ?_⟩
      · intro x y hx hy h
        have hxy : Matches x y := same_iff_matches.mp h
        exact same_iff_matches.mpr (hxy.symm ih hx.1.here (hparts hx) (hparts hy))
      · intro x y z hx hy hz h h'
        have hxy : Matches x y := same_iff_matches.mp h
        have hyz : Matches y z := same_iff_matches.mp h'
        exact same_iff_matches.mpr (hxy.trans ih hyz (hparts hx) (hparts hy) (hparts hz))

/-- On built trees equality is an equivalence. -/
theorem lawful_built : Distinct.Lawful Built := by
  refine ⟨same_refl, ?_, ?_⟩
  · intro x y hx hy
    have laws := lawful_below (sizeOf x + sizeOf y + 1)
    exact laws.symm ⟨hx, by omega⟩ ⟨hy, by omega⟩
  · intro x y z hx hy hz
    have laws := lawful_below (sizeOf x + sizeOf y + sizeOf z + 1)
    exact laws.trans ⟨hx, by omega⟩ ⟨hy, by omega⟩ ⟨hz, by omega⟩

theorem same_symm (ha : a.Built) (hb : b.Built) (h : same a b = true) :
    same b a = true :=
  lawful_built.symm ha hb h

theorem same_trans (ha : a.Built) (hb : b.Built) (hc : c.Built)
    (h : same a b = true) (h' : same b c = true) : same a c = true :=
  lawful_built.trans ha hb hc h h'

/-- Of two equal set literals each covers the other. -/
theorem cover_of_same {members members' : List Expr}
    (ha : (set members).Built) (hb : (set members').Built)
    (h : same (set members) (set members') = true) :
    ∀ m' ∈ members', ∃ m ∈ members, same m m' = true := by
  cases same_iff_matches.mp h with
  | set length cover =>
      exact cover_symm lawful_built (fun m hm => ha.part hm) (fun m' hm' => hb.part hm')
        ha.here.1 length cover

end Equivalence

section Contents

variable {a b : Expr}

theorem isBoundAll_congr {es es' : List Expr}
    (h : List.Forall₂ (fun e e' => e.isBound = e'.isBound) es es') :
    isBoundAll es = isBoundAll es' := by
  induction h with
  | nil => rfl
  | cons h _ ih => rw [isBoundAll, isBoundAll, h, ih]

/-- Of two equal trees both are free of placeholders, or neither. -/
theorem isBound_of_same (ha : a.Built) (hb : b.Built) (h : same a b = true) :
    a.isBound = b.isBound := by
  induction ha generalizing b with
  | @node e hhere hparts ih =>
      have hset := h
      rw [same_iff_matches] at h
      cases h with
      | string s => rfl
      | number h => rfl
      | set length cover =>
          rw [isBound, isBound, Bool.eq_iff_iff, isBoundAll_iff_forall,
            isBoundAll_iff_forall]
          constructor
          · intro hall m' hm'
            obtain ⟨m, hm, hmm'⟩ := cover_of_same (.node hhere hparts) hb hset m' hm'
            rw [← ih m hm (hb.part hm') hmm']
            exact hall m hm
          · intro hall m hm
            obtain ⟨m', hm', hsame⟩ := cover m hm
            rw [ih m hm (hb.part hm') (same_symm (hb.part hm') (hparts m hm) hsame)]
            exact hall m' hm'
      | name scope name => rfl
      | request scope name h => rfl
      | «variable» path template => rfl
      | call path ht h =>
          apply isBoundAll_congr
          apply forall₂_imp_of_mem h
          intro x hx y hy hxy
          exact ih x (argument_mem_parts hx) (hb.part (argument_mem_parts hy)) hxy
      | not h =>
          rw [isBound, isBound,
            ih _ (operand_mem_parts _) (hb.part (operand_mem_parts _)) h]
      | binary op hl hr =>
          rw [isBound, isBound,
            ih _ (left_mem_parts op _ _) (hb.part (left_mem_parts op _ _)) hl,
            ih _ (right_mem_parts op _ _) (hb.part (right_mem_parts op _ _)) hr]

end Contents

end Expr
end Criteria
