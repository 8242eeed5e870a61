/-!
# Collecting distinct members

A set is written as a list of members.  Collecting goes through the list once,
keeps each member that equals none kept before it, and stops at the first member
that a set may not have.  Literal sets and set values are both collected so.

**Results.**
* `collect_sublist`: what is collected is what was kept before, followed by
  members of the list in their order.
-/

namespace Criteria
namespace Distinct

variable {α : Type} [BEq α] (refused : α → Bool)

/-- Adds the members of a list to those kept so far. -/
def collectInto (kept : List α) : List α → Except α (List α)
  | [] => .ok kept
  | x :: xs =>
      if refused x then .error x
      else if kept.any (· == x) then collectInto kept xs
      else collectInto (kept ++ [x]) xs

/-- The distinct members of a list, or the first member that is refused. -/
def collect (xs : List α) : Except α (List α) :=
  collectInto refused [] xs

theorem collectInto_sublist :
    ∀ (kept xs out : List α), collectInto refused kept xs = .ok out →
      ∃ added, out = kept ++ added ∧ added.Sublist xs
  | kept, [], out, h => by
      cases h
      exact ⟨[], by simp, .slnil⟩
  | kept, x :: xs, out, h => by
      unfold collectInto at h
      split at h
      · cases h
      · split at h
        · obtain ⟨added, rfl, hs⟩ := collectInto_sublist kept xs out h
          exact ⟨added, rfl, hs.cons x⟩
        · obtain ⟨added, rfl, hs⟩ := collectInto_sublist (kept ++ [x]) xs out h
          exact ⟨x :: added, by simp, hs.cons_cons x⟩

theorem collect_sublist {xs out : List α} (h : collect refused xs = .ok out) :
    out.Sublist xs := by
  obtain ⟨added, rfl, hs⟩ := collectInto_sublist refused [] xs out h
  simpa using hs

end Distinct
end Criteria
