import Criteria.Proofs.Equality

/-!
# Built set literals

A set literal is built from a list of members by leaving out those that equal an earlier
one.  Nothing is lost by this: what is kept and the list cover each other, each member of
the one being equal to a member of the other.  Two built literals are equal exactly when
they cover each other, though the comparison asks only for their lengths and for one of
the two directions; the other direction and the equal lengths follow from the members
being distinct.

**Results.**
* `ofMembers_eq_self`: a set literal that has been built is built from its members.
* `builtHere_set_iff`: the members of a built literal are those that building yields.
* `same_set_iff`: built literals are equal exactly when they cover each other.
* `same_ofMembers_iff`: so are the literals that two lists build.
* `beq_equivalence`: equality of built trees is an equivalence, and literals are equal as
  sets.
-/

namespace Criteria
namespace Expr

section Building

variable {members : List Expr} {u : Expr}

theorem ofMembers_eq_ok_iff :
    ofMembers members = .ok u ↔
      ∃ kept, Distinct.collect isSet members = .ok kept ∧ u = set kept := by
  rw [ofMembers]
  cases Distinct.collect isSet members with
  | error m => simp
  | ok kept => simp [eq_comm]

/-- Building a set literal again changes nothing. -/
theorem ofMembers_eq_self (h : (set members).BuiltHere) :
    ofMembers members = .ok (set members) := by
  obtain ⟨hapart, hset⟩ := h
  exact ofMembers_eq_ok_iff.mpr
    ⟨members, Distinct.collect_of_apart hset hapart, rfl⟩

/-- The members of a built set literal are those that building yields from some list. -/
theorem builtHere_set_iff :
    (set members).BuiltHere ↔ ∃ xs, ofMembers xs = .ok (set members) := by
  constructor
  · intro h
    exact ⟨members, ofMembers_eq_self h⟩
  · rintro ⟨xs, h⟩
    obtain ⟨kept, hkept, heq⟩ := ofMembers_eq_ok_iff.mp h
    cases heq
    exact ⟨Distinct.apart_of_collect hkept, Distinct.refused_of_mem_collect hkept⟩

theorem built_ofMembers (hmembers : ∀ m ∈ members, m.Built)
    (h : ofMembers members = .ok u) : u.Built := by
  obtain ⟨kept, hkept, rfl⟩ := ofMembers_eq_ok_iff.mp h
  refine Built.node (builtHere_set_iff.mpr ⟨members, h⟩) ?_
  intro m hm
  exact hmembers m ((Distinct.collect_sublist isSet hkept).subset hm)

end Building

section Covering

/-- Each tree of a list equals one of another list. -/
def Covered (xs ys : List Expr) : Prop :=
  ∀ x ∈ xs, ∃ y ∈ ys, (x == y) = true

variable {xs ys zs kept members members' : List Expr} {a b : Expr}

theorem Covered.trans (hxs : ∀ x ∈ xs, x.Built) (hys : ∀ y ∈ ys, y.Built)
    (hzs : ∀ z ∈ zs, z.Built) (h : Covered xs ys) (h' : Covered ys zs) :
    Covered xs zs := by
  intro x hx
  obtain ⟨y, hy, hxy⟩ := h x hx
  obtain ⟨z, hz, hyz⟩ := h' y hy
  exact ⟨z, hz, same_trans (hxs x hx) (hys y hy) (hzs z hz) hxy hyz⟩

/-- The kept members and the list that they are collected from cover each other. -/
theorem covered_collect (hxs : ∀ x ∈ xs, x.Built)
    (h : Distinct.collect isSet xs = .ok kept) :
    Covered kept xs ∧ Covered xs kept := by
  have hsubset := (Distinct.collect_sublist isSet h).subset
  refine ⟨?_, ?_⟩
  · intro k hk
    exact ⟨k, hsubset hk, same_refl (hxs k (hsubset hk))⟩
  · intro x hx
    obtain ⟨k, hk, rfl | hkx⟩ := Distinct.covered_of_collect h x hx
    · exact ⟨k, hk, same_refl (hxs k hx)⟩
    · exact ⟨k, hk, same_symm (hxs k (hsubset hk)) (hxs x hx) hkx⟩

/-- The members of a built literal are no more than those of one that covers it. -/
theorem length_le_of_covered (ha : (set members).Built) (hb : (set members').Built)
    (h : Covered members members') : members.length ≤ members'.length := by
  apply Distinct.length_le_of_cover h
  refine List.Pairwise.imp_of_mem ?_ ha.here.1
  intro m n hm hn hne m' hm' hmm' hnm'
  have hm'n : same m' n = true := same_symm (ha.part hn) (hb.part hm') hnm'
  exact Bool.eq_false_iff.mp hne
    (same_trans (ha.part hm) (hb.part hm') (ha.part hn) hmm' hm'n)

/-- Covering asks the same question as the comparison of the literals does, which has the
members of the other literal as its left operands. -/
theorem covered_iff_met (hxs : ∀ x ∈ xs, x.Built) (hys : ∀ y ∈ ys, y.Built) :
    Covered xs ys ↔ ∀ x ∈ xs, ∃ y ∈ ys, (y == x) = true := by
  refine forall₂_congr fun x hx => exists_congr fun y => and_congr_right fun hy => ?_
  exact ⟨same_symm (hxs x hx) (hys y hy), same_symm (hys y hy) (hxs x hx)⟩

theorem same_set_iff (ha : (set members).Built) (hb : (set members').Built) :
    (set members == set members') = true ↔
      Covered members members' ∧ Covered members' members := by
  have hm : ∀ m ∈ members, m.Built := fun m hm => ha.part hm
  have hm' : ∀ m' ∈ members', m'.Built := fun m' hm' => hb.part hm'
  constructor
  · intro h
    obtain ⟨-, hmet⟩ := (beq_set members members').mp h
    refine ⟨(covered_iff_met hm hm').mpr hmet, ?_⟩
    intro m' hmem
    obtain ⟨m, hmm, hsame⟩ := cover_of_same ha hb h m' hmem
    exact ⟨m, hmm, same_symm (hm m hmm) (hm' m' hmem) hsame⟩
  · rintro ⟨hcover, hcover'⟩
    have hlength := Nat.le_antisymm (length_le_of_covered ha hb hcover)
      (length_le_of_covered hb ha hcover')
    exact (beq_set members members').mpr ⟨hlength, (covered_iff_met hm hm').mp hcover⟩

/-- Two lists build equal literals exactly when they cover each other. -/
theorem same_ofMembers_iff (hxs : ∀ x ∈ xs, x.Built) (hys : ∀ y ∈ ys, y.Built)
    (ha : ofMembers xs = .ok a) (hb : ofMembers ys = .ok b) :
    (a == b) = true ↔ Covered xs ys ∧ Covered ys xs := by
  have hbuilt := built_ofMembers hxs ha
  have hbuilt' := built_ofMembers hys hb
  obtain ⟨kept, hkept, rfl⟩ := ofMembers_eq_ok_iff.mp ha
  obtain ⟨kept', hkept', rfl⟩ := ofMembers_eq_ok_iff.mp hb
  obtain ⟨hin, hout⟩ := covered_collect hxs hkept
  obtain ⟨hin', hout'⟩ := covered_collect hys hkept'
  have hk : ∀ k ∈ kept, k.Built := fun k hk => hbuilt.part hk
  have hk' : ∀ k ∈ kept', k.Built := fun k hk => hbuilt'.part hk
  rw [same_set_iff hbuilt hbuilt']
  constructor
  · rintro ⟨h, h'⟩
    exact ⟨.trans hxs hk' hys (.trans hxs hk hk' hout h) hin',
      .trans hys hk hxs (.trans hys hk' hk hout' h') hin⟩
  · rintro ⟨h, h'⟩
    exact ⟨.trans hk hys hk' (.trans hk hxs hys hin h) hout',
      .trans hk' hxs hk (.trans hk' hys hxs hin' h') hout⟩

end Covering

/-- Among trees whose set literals have been built, equality is an equivalence, and the
literals that two lists of such trees build are equal exactly when each list covers the
other. -/
theorem beq_equivalence :
    (Equivalence fun a b : {e : Expr // e.Built} => (a.val == b.val) = true) ∧
      ∀ xs ys : List Expr, (∀ x ∈ xs, x.Built) → (∀ y ∈ ys, y.Built) →
        ∀ a b, ofMembers xs = .ok a → ofMembers ys = .ok b →
          ((a == b) = true ↔
            (∀ x ∈ xs, ∃ y ∈ ys, (x == y) = true) ∧
              ∀ y ∈ ys, ∃ x ∈ xs, (y == x) = true) := by
  refine ⟨⟨?_, ?_, ?_⟩, ?_⟩
  · exact fun a => same_refl a.property
  · exact fun {a b} h => same_symm a.property b.property h
  · exact fun {a b c} h h' => same_trans a.property b.property c.property h h'
  · exact fun xs ys hxs hys a b ha hb => same_ofMembers_iff hxs hys ha hb

theorem beq_equivalence_numbers :
    let xs := [number ⟨1, 0⟩, string "a", number ⟨10, 1⟩]
    let ys := [string "a", number ⟨100, 2⟩]
    ∃ a b, ofMembers xs = .ok a ∧ ofMembers ys = .ok b ∧ (a == b) = true := by
  intro xs ys
  have hxs : ∀ x ∈ xs, x.Built := by
    simp only [xs, List.forall_mem_cons]
    exact ⟨built_leaf rfl, built_leaf rfl, built_leaf rfl, by simp⟩
  have hys : ∀ y ∈ ys, y.Built := by
    simp only [ys, List.forall_mem_cons]
    exact ⟨built_leaf rfl, built_leaf rfl, by simp⟩
  refine ⟨_, _, rfl, rfl, (beq_equivalence.2 xs ys hxs hys _ _ rfl rfl).mpr ?_⟩
  decide

end Expr
end Criteria
