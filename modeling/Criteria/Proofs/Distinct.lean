import Criteria.Distinct

/-!
# Laws of collecting

Collecting fails exactly when a member is refused, and what it gives has no two equal
members and still covers the list.  Two lists without equal members that are as long as
each other cover each other when one covers the other.

**Results.**
* `collect_ok_iff`: a list is collected exactly when none of its members is refused.
* `apart_of_collect`, `covered_of_collect`: what is collected has no two equal members,
  and every member of the list equals one of them.
* `collect_of_apart`: a list without equal members is collected as it is.
* `collect_map`: what a map that keeps members apart does to a list, it does to what is
  collected from it.
* `exists_of_mem_right`: an injective cover of a list that is no longer is onto.
* `length_le_of_cover`: an injective cover is of a list that is as long or longer.
-/

namespace Criteria
namespace Distinct

section Collecting

variable {α : Type} [BEq α]

/-- No member of a list equals a later one. -/
def Apart (xs : List α) : Prop :=
  xs.Pairwise fun x y => (x == y) = false

/-- On the members with a property, equality is an equivalence. -/
structure Lawful (P : α → Prop) : Prop where
  refl : ∀ {a}, P a → (a == a) = true
  symm : ∀ {a b}, P a → P b → (a == b) = true → (b == a) = true
  trans : ∀ {a b c}, P a → P b → P c → (a == b) = true → (b == c) = true → (a == c) = true

theorem Lawful.mono {P Q : α → Prop} (lawful : Lawful P) (h : ∀ a, Q a → P a) : Lawful Q where
  refl ha := lawful.refl (h _ ha)
  symm ha hb := lawful.symm (h _ ha) (h _ hb)
  trans ha hb hc := lawful.trans (h _ ha) (h _ hb) (h _ hc)

variable (refused : α → Bool)

theorem collectInto_ok_iff :
    ∀ kept xs : List α,
      (∃ out, collectInto refused kept xs = .ok out) ↔ ∀ x ∈ xs, refused x = false
  | kept, [] => by simp [collectInto]
  | kept, x :: xs => by
      unfold collectInto
      by_cases hr : refused x = true
      · simp [hr]
      · rw [Bool.not_eq_true] at hr
        simp only [hr, Bool.false_eq_true, if_false, List.mem_cons, forall_eq_or_imp,
          true_and]
        split
        · exact collectInto_ok_iff kept xs
        · exact collectInto_ok_iff (kept ++ [x]) xs

theorem collect_ok_iff (xs : List α) :
    (∃ out, collect refused xs = .ok out) ↔ ∀ x ∈ xs, refused x = false :=
  collectInto_ok_iff refused [] xs

variable {refused}

theorem apart_append_singleton {kept : List α} {x : α}
    (hkept : Apart kept) (hx : kept.any (· == x) = false) :
    Apart (kept ++ [x]) := by
  rw [Apart, List.pairwise_append]
  refine ⟨hkept, List.pairwise_singleton _ x, ?_⟩
  intro k hk y hy
  rw [List.mem_singleton.mp hy]
  rw [List.any_eq_false] at hx
  exact Bool.eq_false_iff.mpr (hx k hk)

theorem apart_of_collectInto {kept xs out : List α} (hkept : Apart kept)
    (h : collectInto refused kept xs = .ok out) : Apart out := by
  induction xs generalizing kept with
  | nil =>
      cases h
      exact hkept
  | cons x xs ih =>
      unfold collectInto at h
      split at h
      · cases h
      · split at h
        · exact ih hkept h
        · next hx =>
            exact ih (apart_append_singleton hkept (Bool.eq_false_iff.mpr hx)) h

theorem apart_of_collect {xs out : List α} (h : collect refused xs = .ok out) :
    Apart out :=
  apart_of_collectInto List.Pairwise.nil h

theorem kept_subset_of_collectInto {kept xs out : List α}
    (h : collectInto refused kept xs = .ok out) : kept ⊆ out := by
  obtain ⟨added, rfl, -⟩ := collectInto_sublist refused kept xs out h
  exact List.subset_append_left kept added

theorem covered_of_collectInto {kept xs out : List α}
    (h : collectInto refused kept xs = .ok out) :
    ∀ x ∈ xs, ∃ k ∈ out, k = x ∨ (k == x) = true := by
  induction xs generalizing kept with
  | nil => simp
  | cons x xs ih =>
      unfold collectInto at h
      split at h
      · cases h
      · split at h
        · next hx =>
            obtain ⟨k, hk, hkx⟩ := List.any_eq_true.mp hx
            intro y hy
            rcases List.mem_cons.mp hy with rfl | hy
            · exact ⟨k, kept_subset_of_collectInto h hk, Or.inr hkx⟩
            · exact ih h y hy
        · intro y hy
          rcases List.mem_cons.mp hy with rfl | hy
          · have hmem : y ∈ kept ++ [y] := by simp
            exact ⟨y, kept_subset_of_collectInto h hmem, Or.inl rfl⟩
          · exact ih h y hy

theorem covered_of_collect {xs out : List α} (h : collect refused xs = .ok out) :
    ∀ x ∈ xs, ∃ k ∈ out, k = x ∨ (k == x) = true :=
  covered_of_collectInto h

theorem refused_of_mem_collect {xs out : List α} (h : collect refused xs = .ok out) :
    ∀ x ∈ out, refused x = false := by
  intro x hx
  exact (collect_ok_iff refused xs).mp ⟨out, h⟩ x
    ((collect_sublist refused h).subset hx)

theorem collectInto_of_apart {kept xs : List α} (hr : ∀ x ∈ xs, refused x = false)
    (h : Apart (kept ++ xs)) : collectInto refused kept xs = .ok (kept ++ xs) := by
  induction xs generalizing kept with
  | nil => simp [collectInto]
  | cons x xs ih =>
      have hx : kept.any (· == x) = false := by
        rw [List.any_eq_false]
        intro k hk
        exact Bool.eq_false_iff.mp
          ((List.pairwise_append.mp h).2.2 k hk x List.mem_cons_self)
      have hassoc : kept ++ x :: xs = (kept ++ [x]) ++ xs := by simp
      rw [collectInto, hr x List.mem_cons_self, hx]
      simp only [Bool.false_eq_true, if_false]
      rw [hassoc] at h ⊢
      exact ih (fun y hy => hr y (List.mem_cons_of_mem x hy)) h

/-- A list without equal members is collected as it is. -/
theorem collect_of_apart {xs : List α} (hr : ∀ x ∈ xs, refused x = false)
    (h : Apart xs) : collect refused xs = .ok xs := by
  have hnil : Apart ([] ++ xs) := h
  exact collectInto_of_apart hr hnil

theorem collectInto_map {f : α → α} {all kept xs out : List α}
    (hrefused : ∀ x ∈ all, refused (f x) = refused x)
    (hbeq : ∀ x ∈ all, ∀ y ∈ all, (f x == f y) = (x == y))
    (hkept : ∀ k ∈ kept, k ∈ all) (hxs : ∀ x ∈ xs, x ∈ all)
    (h : collectInto refused kept xs = .ok out) :
    collectInto refused (kept.map f) (xs.map f) = .ok (out.map f) := by
  induction xs generalizing kept with
  | nil =>
      cases h
      rfl
  | cons x xs ih =>
      obtain ⟨hx, hxs⟩ := List.forall_mem_cons.mp hxs
      have hany : (kept.map f).any (· == f x) = kept.any (· == x) := by
        rw [List.any_map, Bool.eq_iff_iff, List.any_eq_true, List.any_eq_true]
        refine exists_congr fun k => and_congr_right fun hk => ?_
        rw [Function.comp_apply, hbeq k (hkept k hk) x hx]
      rw [collectInto] at h
      rw [List.map_cons, collectInto, hrefused x hx, hany]
      split at h
      · cases h
      · next hr =>
          rw [if_neg hr]
          split at h
          · next hin =>
              rw [if_pos hin]
              exact ih hkept hxs h
          · next hin =>
              rw [if_neg hin]
              have hmore : ∀ k ∈ kept ++ [x], k ∈ all :=
                List.forall_mem_append.mpr ⟨hkept, List.forall_mem_singleton.mpr hx⟩
              simpa using ih hmore hxs h

/-- A map that refuses no other members and keeps different members different commutes with
collecting. -/
theorem collect_map {f : α → α} {xs out : List α}
    (hrefused : ∀ x ∈ xs, refused (f x) = refused x)
    (hbeq : ∀ x ∈ xs, ∀ y ∈ xs, (f x == f y) = (x == y))
    (h : collect refused xs = .ok out) :
    collect refused (xs.map f) = .ok (out.map f) :=
  collectInto_map hrefused hbeq (by simp) (fun _ hx => hx) h

end Collecting

section Covers

variable {α β : Type} {R : α → β → Prop}

/-- When each member of a list is related to one of a list that is no longer, and no two
of them to the same, then every member of the other list is met. -/
theorem exists_of_mem_right {xs : List α} {ys : List β}
    (hlength : ys.length ≤ xs.length) (hcover : ∀ x ∈ xs, ∃ y ∈ ys, R x y)
    (hapart : xs.Pairwise fun x x' => ∀ y ∈ ys, R x y → ¬ R x' y) :
    ∀ y ∈ ys, ∃ x ∈ xs, R x y := by
  induction xs generalizing ys with
  | nil =>
      intro y hy
      rw [List.eq_nil_of_length_eq_zero (Nat.le_zero.mp hlength)] at hy
      cases hy
  | cons x xs ih =>
      obtain ⟨y₀, hy₀, hxy₀⟩ := hcover x List.mem_cons_self
      obtain ⟨before, after, rfl⟩ := List.append_of_mem hy₀
      obtain ⟨hx, hxs⟩ := List.pairwise_cons.mp hapart
      -- The other members of `xs` are related to members other than `y₀`.
      have hothers : ∀ y ∈ before ++ after, ∃ x' ∈ xs, R x' y := by
        refine ih ?_ ?_ ?_
        · simp only [List.length_append, List.length_cons] at hlength ⊢
          omega
        · intro x' hx'
          obtain ⟨y, hy, hxy⟩ := hcover x' (List.mem_cons_of_mem x hx')
          refine ⟨y, ?_, hxy⟩
          rcases List.mem_append.mp hy with hy | hy
          · exact List.mem_append_left after hy
          · rcases List.mem_cons.mp hy with rfl | hy
            · exact absurd hxy (hx x' hx' y hy₀ hxy₀)
            · exact List.mem_append_right before hy
        · refine hxs.imp ?_
          intro a b hab y hy
          rcases List.mem_append.mp hy with hy | hy
          · exact hab y (List.mem_append_left _ hy)
          · exact hab y (List.mem_append_right _ (List.mem_cons_of_mem y₀ hy))
      intro y hy
      rcases List.mem_append.mp hy with hy | hy
      · obtain ⟨x', hx', h⟩ := hothers y (List.mem_append_left after hy)
        exact ⟨x', List.mem_cons_of_mem x hx', h⟩
      · rcases List.mem_cons.mp hy with rfl | hy
        · exact ⟨x, List.mem_cons_self, hxy₀⟩
        · obtain ⟨x', hx', h⟩ := hothers y (List.mem_append_right before hy)
          exact ⟨x', List.mem_cons_of_mem x hx', h⟩

/-- A list of which no two members are related to the same one of another list is no
longer than that list. -/
theorem length_le_of_cover {xs : List α} {ys : List β}
    (hcover : ∀ x ∈ xs, ∃ y ∈ ys, R x y)
    (hapart : xs.Pairwise fun x x' => ∀ y ∈ ys, R x y → ¬ R x' y) :
    xs.length ≤ ys.length := by
  cases xs with
  | nil => exact Nat.zero_le ys.length
  | cons x xs =>
      obtain ⟨hx, hxs⟩ := List.pairwise_cons.mp hapart
      rcases Nat.lt_or_ge xs.length ys.length with hlonger | hlength
      · exact hlonger
      · -- Without `x` the list would still meet every member of `ys`, also that of `x`.
        obtain ⟨y, hy, hxy⟩ := hcover x List.mem_cons_self
        obtain ⟨x', hx', hx'y⟩ := exists_of_mem_right hlength
          (fun z hz => hcover z (List.mem_cons_of_mem x hz)) hxs y hy
        exact absurd hx'y (hx x' hx' y hy hxy)

end Covers

end Distinct
end Criteria
