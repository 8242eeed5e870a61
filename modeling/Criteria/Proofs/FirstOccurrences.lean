import Criteria.Proofs.Congruence
import Criteria.Proofs.Members
import Criteria.Proofs.WellFormed

/-!
# First occurrences

A literal set and a set value are built from a list in one pass, which keeps a member when it
equals none kept so far and stops at the first member that is itself a set.  What has been kept
from the part of the list that the pass has gone through are the first occurrences in it: they
stand there in their order, none before them is equal to them, and each member seen equals one
of them and only one.  One more member is either left out or kept, and neither changes this.

**Results.**
* `collect_eq_error_iff`: collecting stops at the first member that is refused.
* `FirstOccurrences.skip`, `FirstOccurrences.keep`: what one more member does.
* `firstOccurrences_of_collect`: what is collected are the first occurrences.
* `ofMembers_firstOccurrences`: so it is with literal sets and with set values, and neither
  changes when it is built again.
-/

namespace Criteria
namespace Distinct

section Refusal

variable {α : Type} [BEq α] {refused : α → Bool}

theorem collectInto_eq_error_iff {kept xs : List α} {x : α} :
    collectInto refused kept xs = .error x ↔ xs.find? refused = some x := by
  induction xs generalizing kept with
  | nil => simp [collectInto]
  | cons y ys ih =>
      rw [collectInto]
      by_cases hy : refused y = true
      · rw [if_pos hy, List.find?_cons_of_pos hy, Except.error.injEq, Option.some.injEq]
      · -- Whether the member is kept makes no difference to where collecting stops.
        rw [if_neg hy, List.find?_cons_of_neg hy]
        split
        · exact ih
        · exact ih

/-- Collecting stops at the first member that is refused. -/
theorem collect_eq_error_iff {xs : List α} {x : α} :
    collect refused xs = .error x ↔ xs.find? refused = some x :=
  collectInto_eq_error_iff

theorem collect_fails_iff {xs : List α} :
    (∃ x, collect refused xs = .error x) ↔ ∃ x ∈ xs, refused x = true := by
  simp only [collect_eq_error_iff, ← Option.isSome_iff_exists, List.find?_isSome]

end Refusal

section Occurrences

variable {α : Type} [BEq α]

/-- A member stands at this position of a list, and nothing that is equal to it stands
before. -/
def FirstAt (xs : List α) (n : Nat) (k : α) : Prop :=
  xs[n]? = some k ∧ ∀ m y, xs[m]? = some y → (y == k) = true → n ≤ m

/-- The members kept are the first occurrences in a list: no two of them are equal, each
member of the list equals one of them and no other, and they stand in the list at positions
that grow, each before whatever else is equal to it. -/
structure FirstOccurrences (xs kept : List α) : Prop where
  sublist : kept.Sublist xs
  apart : kept.Pairwise fun k k' => (k == k') = false ∧ (k' == k) = false
  once : ∀ x ∈ xs, kept.countP (· == x) = 1
  positions : ∃ places : List Nat, places.Pairwise (· < ·) ∧ List.Forall₂ (FirstAt xs) places kept

variable {P : α → Prop} {refused : α → Bool} {xs seen kept out : List α} {x k : α} {n : Nat}

theorem FirstAt.lt (h : FirstAt seen n k) : n < seen.length :=
  (List.getElem?_eq_some_iff.mp h.1).1

theorem FirstAt.append (h : FirstAt seen n k) (x : α) : FirstAt (seen ++ [x]) n k := by
  have hlt := h.lt
  rcases h with ⟨hn, hfirst⟩
  refine ⟨by rw [List.getElem?_append_left hlt, hn], ?_⟩
  intro m y hm hy
  by_cases hin : m < seen.length
  · rw [List.getElem?_append_left hin] at hm
    exact hfirst m y hm hy
  · omega

/-- What equals none of the members seen stands first where it is added. -/
theorem firstAt_length (hnew : ∀ y ∈ seen, (y == x) = false) :
    FirstAt (seen ++ [x]) seen.length x := by
  refine ⟨by simp, ?_⟩
  intro m y hm hy
  by_cases hin : m < seen.length
  · rw [List.getElem?_append_left hin] at hm
    rw [hnew y (List.mem_of_getElem? hm)] at hy
    cases hy
  · omega

namespace FirstOccurrences

theorem nil : FirstOccurrences ([] : List α) [] :=
  ⟨.slnil, .nil, by simp, [], .nil, .nil⟩

/-- Each member that has been seen equals one that is kept. -/
theorem covered (h : FirstOccurrences seen kept) (hx : x ∈ seen) :
    ∃ k ∈ kept, (k == x) = true := by
  have hpos : 0 < kept.countP (· == x) := by
    rw [h.once x hx]
    omega
  exact List.countP_pos_iff.mp hpos

/-- A member that equals one that is kept equals no other. -/
theorem countP_eq_one (lawful : Lawful P) (h : FirstOccurrences seen kept)
    (hseen : ∀ y ∈ seen, P y) (hx : P x) (hin : kept.any (· == x) = true) :
    kept.countP (· == x) = 1 := by
  have hkept : ∀ k ∈ kept, P k := fun k hk => hseen k (h.sublist.subset hk)
  obtain ⟨k, hk, hkx⟩ := List.any_eq_true.mp hin
  rcases List.append_of_mem hk with ⟨before, after, rfl⟩
  have hxk : (x == k) = true := lawful.symm (hkept k hk) hx hkx
  rcases List.pairwise_append.mp h.apart with ⟨-, hrest, hacross⟩
  rcases List.pairwise_cons.mp hrest with ⟨hafter, -⟩
  have hothers : ∀ k' ∈ before ++ k :: after, (k' == k) = false → ¬ (k' == x) = true := by
    intro k' hk' hne hk'x
    rw [lawful.trans (hkept k' hk') hx (hkept k hk) hk'x hxk] at hne
    cases hne
  have hbefore : before.countP (· == x) = 0 := by
    rw [List.countP_eq_zero]
    intro k' hk'
    exact hothers k' (List.mem_append_left _ hk') (hacross k' hk' k List.mem_cons_self).1
  have hlater : after.countP (· == x) = 0 := by
    rw [List.countP_eq_zero]
    intro k' hk'
    exact hothers k' (by simp [hk']) (hafter k' hk').2
  rw [List.countP_append, List.countP_cons, hbefore, hlater, if_pos hkx]

/-- A member that equals one that is kept is left out. -/
theorem skip (lawful : Lawful P) (h : FirstOccurrences seen kept)
    (hseen : ∀ y ∈ seen, P y) (hx : P x) (hin : kept.any (· == x) = true) :
    FirstOccurrences (seen ++ [x]) kept := by
  refine ⟨h.sublist.trans (List.sublist_append_left seen [x]), h.apart, ?_, ?_⟩
  · intro y hy
    rcases List.mem_append.mp hy with hy | hy
    · exact h.once y hy
    · rw [List.mem_singleton.mp hy]
      exact countP_eq_one lawful h hseen hx hin
  · rcases h.positions with ⟨places, hincreasing, hfirst⟩
    exact ⟨places, hincreasing, hfirst.imp fun n k hn => hn.append x⟩

/-- A member that equals none that is kept equals none that has been seen. -/
theorem new (lawful : Lawful P) (h : FirstOccurrences seen kept) (hseen : ∀ y ∈ seen, P y)
    (hx : P x) (hout : kept.any (· == x) = false) :
    (∀ y ∈ seen, (y == x) = false) ∧ ∀ y ∈ seen, (x == y) = false := by
  have hnone : ∀ y ∈ seen, ¬ (y == x) = true := by
    intro y hy hyx
    obtain ⟨k, hk, hky⟩ := h.covered hy
    have hkseen : P k := hseen k (h.sublist.subset hk)
    exact List.any_eq_false.mp hout k hk (lawful.trans hkseen (hseen y hy) hx hky hyx)
  refine ⟨fun y hy => Bool.eq_false_iff.mpr (hnone y hy), ?_⟩
  intro y hy
  exact Bool.eq_false_iff.mpr fun hxy => hnone y hy (lawful.symm hx (hseen y hy) hxy)

/-- A member that equals none that is kept is kept. -/
theorem keep (lawful : Lawful P) (h : FirstOccurrences seen kept) (hseen : ∀ y ∈ seen, P y)
    (hx : P x) (hout : kept.any (· == x) = false) :
    FirstOccurrences (seen ++ [x]) (kept ++ [x]) := by
  rcases h.new lawful hseen hx hout with ⟨hnew, hnew'⟩
  refine ⟨h.sublist.append (.refl [x]), ?_, ?_, ?_⟩
  · rw [List.pairwise_append]
    refine ⟨h.apart, List.pairwise_singleton _ x, ?_⟩
    intro k hk y hy
    have hkseen : k ∈ seen := h.sublist.subset hk
    rw [List.mem_singleton.mp hy]
    exact ⟨hnew k hkseen, hnew' k hkseen⟩
  · intro y hy
    rw [List.countP_append]
    rcases List.mem_append.mp hy with hy | hy
    · rw [h.once y hy, List.countP_singleton, hnew' y hy]
      rfl
    · rw [List.mem_singleton.mp hy, List.countP_singleton, lawful.refl hx]
      have hnone : kept.countP (· == x) = 0 := by
        rw [List.countP_eq_zero]
        exact List.any_eq_false.mp hout
      rw [hnone]
      rfl
  · rcases h.positions with ⟨places, hincreasing, hfirst⟩
    refine ⟨places ++ [seen.length], ?_, ?_⟩
    · rw [List.pairwise_append]
      refine ⟨hincreasing, List.pairwise_singleton _ _, ?_⟩
      intro n hn m hm
      obtain ⟨k, -, hnk⟩ := exists_right_of_forall₂ hfirst hn
      rw [List.mem_singleton.mp hm]
      exact hnk.lt
    · have hbefore := hfirst.imp fun n k hn => hn.append x
      exact List.rel_append hbefore (.cons (firstAt_length hnew) .nil)

end FirstOccurrences

theorem firstOccurrences_of_collectInto (lawful : Lawful P) (hseen : ∀ y ∈ seen, P y)
    (hxs : ∀ x ∈ xs, P x) (h : FirstOccurrences seen kept)
    (hcollect : collectInto refused kept xs = .ok out) :
    FirstOccurrences (seen ++ xs) out := by
  -- The members left to go through become fewer, and those seen more; at each step the kept
  -- ones are the first occurrences in those seen.
  induction xs generalizing seen kept with
  | nil =>
      cases hcollect
      rwa [List.append_nil]
  | cons x xs ih =>
      rcases List.forall_mem_cons.mp hxs with ⟨hx, hxs⟩
      have hmore : ∀ y ∈ seen ++ [x], P y :=
        List.forall_mem_append.mpr ⟨hseen, List.forall_mem_singleton.mpr hx⟩
      rw [collectInto] at hcollect
      rw [List.append_cons]
      by_cases hr : refused x = true
      · rw [if_pos hr] at hcollect
        cases hcollect
      · rw [if_neg hr] at hcollect
        by_cases hin : kept.any (· == x) = true
        · rw [if_pos hin] at hcollect
          exact ih hmore hxs (h.skip lawful hseen hx hin) hcollect
        · rw [if_neg hin] at hcollect
          rw [Bool.not_eq_true] at hin
          exact ih hmore hxs (h.keep lawful hseen hx hin) hcollect

/-- What is collected from a list are the first occurrences in it. -/
theorem firstOccurrences_of_collect (lawful : Lawful P) (hxs : ∀ x ∈ xs, P x)
    (hcollect : collect refused xs = .ok out) : FirstOccurrences xs out :=
  firstOccurrences_of_collectInto lawful (by simp) hxs .nil hcollect

end Occurrences

section Building

variable {α β ε : Type} [BEq α]

/-- How a set is built from a list: not at all when a member may not be in a set, and then
the first such member is blamed; otherwise from the first occurrences, of which the same set
is built again. -/
structure BuildsFirst (build : List α → Except ε β) (wrap : List α → β) (blame : α → ε)
    (refused : α → Bool) (P : α → Prop) : Prop where
  fails_iff : ∀ xs, (∃ cause, build xs = .error cause) ↔ ∃ x ∈ xs, refused x = true
  blames_first : ∀ before x after, (∀ b ∈ before, refused b = false) → refused x = true →
    build (before ++ x :: after) = .error (blame x)
  keeps_first : ∀ xs, (∀ x ∈ xs, refused x = false) → (∀ x ∈ xs, P x) →
    ∃ kept, build xs = .ok (wrap kept) ∧ FirstOccurrences xs kept
  again : ∀ xs kept, build xs = .ok (wrap kept) → build kept = .ok (wrap kept)

theorem buildsFirst {build : List α → Except ε β} {wrap : List α → β} {blame : α → ε}
    {refused : α → Bool} {P : α → Prop} (lawful : Lawful fun x => P x ∧ refused x = false)
    (hwrap : Function.Injective wrap)
    (hok : ∀ xs kept, collect refused xs = .ok kept → build xs = .ok (wrap kept))
    (herror : ∀ xs x, collect refused xs = .error x → build xs = .error (blame x)) :
    BuildsFirst build wrap blame refused P := by
  refine ⟨?_, ?_, ?_, ?_⟩
  · intro xs
    rw [← collect_fails_iff]
    cases hcollect : collect refused xs with
    | error x => simp [herror xs x hcollect]
    | ok kept => simp [hok xs kept hcollect]
  · intro before x after hbefore hx
    refine herror _ x (collect_eq_error_iff.mpr ?_)
    rw [List.find?_append, List.find?_cons_of_pos hx,
      List.find?_eq_none.mpr fun b hb => Bool.eq_false_iff.mp (hbefore b hb)]
    rfl
  · intro xs hrefused hxs
    obtain ⟨kept, hkept⟩ := (collect_ok_iff refused xs).mpr hrefused
    exact ⟨kept, hok xs kept hkept,
      firstOccurrences_of_collect lawful (fun x hx => ⟨hxs x hx, hrefused x hx⟩) hkept⟩
  · intro xs kept hbuild
    cases hcollect : collect refused xs with
    | error x =>
        rw [herror xs x hcollect] at hbuild
        cases hbuild
    | ok members =>
        rw [hok xs members hcollect, Except.ok.injEq] at hbuild
        rw [← hwrap hbuild]
        exact hok members members
          (collect_of_apart (refused_of_mem_collect hcollect) (apart_of_collect hcollect))

end Building

end Distinct

open Distinct (BuildsFirst Lawful buildsFirst)

theorem Value.lawful_not_set : Lawful fun v : Value => True ∧ v.isSet = false where
  refl ha := beq_refl_of_not_set ha.2
  symm ha _ h := beq_symm_of_not_set ha.2 h
  trans ha _ _ h h' := beq_trans_of_not_set ha.2 h h'

/-- A literal set of built trees and a set of values are built alike: a list with a member
that is a set makes none, and the first such member is named; of any other list the first
occurrences are kept, and building again from what was kept changes nothing. -/
theorem ofMembers_firstOccurrences :
    BuildsFirst Expr.ofMembers Expr.set (fun x => .nestedSet x.render) Expr.isSet Expr.Built ∧
      BuildsFirst Value.ofMembers Value.set id Value.isSet fun _ => True := by
  have lawful := Expr.lawful_built.mono fun e (h : e.Built ∧ e.isSet = false) => h.1
  refine ⟨buildsFirst lawful ?_ ?_ ?_, buildsFirst Value.lawful_not_set ?_ ?_ ?_⟩
  · rintro members members' ⟨⟩
    rfl
  · intro xs kept h
    rw [Expr.ofMembers, h]
  · intro xs x h
    rw [Expr.ofMembers, h]
  · rintro members members' ⟨⟩
    rfl
  · intro xs kept h
    rw [Value.ofMembers, h]
    rfl
  · intro xs x h
    rw [Value.ofMembers, h]
    rfl

/-- The number `1.0` equals `1`, which stands before it; of two sets in a list the first is
named. -/
theorem ofMembers_firstOccurrences_numbers :
    let xs : List Expr := [.number ⟨1, 0⟩, .string "a", .number ⟨10, 1⟩, .number ⟨2, 0⟩]
    let kept : List Expr := [.number ⟨1, 0⟩, .string "a", .number ⟨2, 0⟩]
    let vs : List Value := [.boolean true, .set [], .set [.boolean true]]
    (∀ x ∈ xs, x.isSet = false) ∧ Expr.ofMembers xs = .ok (.set kept) ∧
      Expr.ofMembers kept = .ok (.set kept) ∧ Distinct.FirstOccurrences xs kept ∧
      Value.ofMembers vs = .error (.set []) := by
  intro xs kept vs
  have hsets : ∀ x ∈ xs, x.isSet = false := by decide
  have hbuilt : ∀ x ∈ xs, x.Built := by
    simp only [xs, List.forall_mem_cons]
    exact ⟨Expr.built_leaf rfl, Expr.built_leaf rfl, Expr.built_leaf rfl,
      Expr.built_leaf rfl, by simp⟩
  have hset : Expr.ofMembers xs = .ok (.set kept) := rfl
  obtain ⟨hnodes, hvalues⟩ := ofMembers_firstOccurrences
  obtain ⟨kept', hset', hfirst⟩ := hnodes.keeps_first xs hsets hbuilt
  have hkept : kept' = kept := by
    rw [hset] at hset'
    cases hset'
    rfl
  rw [hkept] at hfirst
  exact ⟨hsets, hset, hnodes.again xs kept hset, hfirst,
    hvalues.blames_first [.boolean true] (.set []) [.set [.boolean true]] (by decide) rfl⟩

end Criteria
