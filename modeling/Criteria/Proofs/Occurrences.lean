import Criteria.Proofs.Subtrees

/-!
# Occurrences of trees

One tree may occur several times inside another.  An occurrence is told from the others by
its address, which says for each step down from the root which child to go to.

**Results.**
* `occurrences_eq`: the occurrences inside the children come first, then the tree itself.
* `map_snd_occurrences`: the trees that occur, in order, are those of the postorder.
* `nodup_occurrences`: no address is listed twice.
-/

namespace Criteria

/-- Which child to go to, at each step down from the root. -/
abbrev Address : Type :=
  List Nat

/-- An address with the tree that stands there. -/
abbrev Place : Type :=
  Address × Expr

namespace Expr

mutual

/-- The tree, which stands at this address, and all trees inside it from left to right, a node
after its children. -/
def occurrences (a : Address) : Expr → List Place
  | .constant (.set members) => occurrencesFrom a 0 members ++ [(a, .constant (.set members))]
  | .constant (.string s) => [(a, .constant (.string s))]
  | .constant (.number d) => [(a, .constant (.number d))]
  | .placeholder ⟨scope, name, none⟩ => [(a, .placeholder ⟨scope, name, none⟩)]
  | .placeholder ⟨scope, name, some arguments⟩ =>
      occurrencesFrom a 0 arguments ++ [(a, .placeholder ⟨scope, name, some arguments⟩)]
  | .variable path template => [(a, .variable path template)]
  | .call path template arguments =>
      occurrencesFrom a 0 arguments ++ [(a, .call path template arguments)]
  | .not operand => occurrences (a ++ [0]) operand ++ [(a, .not operand)]
  | .binary op left right =>
      occurrences (a ++ [0]) left ++
        (occurrences (a ++ [1]) right ++ [(a, .binary op left right)])

/-- The occurrences inside the children of the tree at an address, from this child on. -/
def occurrencesFrom (a : Address) : Nat → List Expr → List Place
  | _, [] => []
  | i, e :: es => occurrences (a ++ [i]) e ++ occurrencesFrom a (i + 1) es

end

/-- The children of the tree at an address, from this child on. -/
def placesFrom (a : Address) : Nat → List Expr → List Place
  | _, [] => []
  | i, e :: es => (a ++ [i], e) :: placesFrom a (i + 1) es

section Order

theorem occurrences_eq (a : Address) (e : Expr) :
    e.occurrences a = occurrencesFrom a 0 e.children ++ [(a, e)] := by
  cases e with
  | constant c => cases c <;> rfl
  | placeholder p => obtain ⟨_, _, _ | _⟩ := p <;> rfl
  | «variable» path template => rfl
  | call path template arguments => rfl
  | not operand => simp [occurrences, children, occurrencesFrom]
  | binary op left right => simp [occurrences, children, occurrencesFrom]

theorem map_snd_occurrences (a : Address) (e : Expr) :
    (e.occurrences a).map (·.2) = e.postorder := by
  induction e using child_induction generalizing a with
  | node e ih =>
      have hall (i : Nat) {es : List Expr} (hes : ∀ c ∈ es, c ∈ e.children) :
          (occurrencesFrom a i es).map (·.2) = postorderAll es := by
        induction es generalizing i with
        | nil => rfl
        | cons c es ihes =>
            rw [occurrencesFrom, postorderAll, List.map_append, ih c (hes c List.mem_cons_self),
              ihes (i + 1) fun d hd => hes d (List.mem_cons_of_mem c hd)]
      rw [occurrences_eq, postorder_eq, List.map_append, hall 0 fun c hc => hc]
      rfl

end Order

section Addresses

variable {a b : Address} {e : Expr} {i : Nat} {es : List Expr}

theorem exists_prefix_of_mem_occurrencesFrom
    (ih : ∀ c ∈ es, ∀ a, ∀ b ∈ (c.occurrences a).map (·.1), a <+: b)
    (h : b ∈ (occurrencesFrom a i es).map (·.1)) : ∃ j, i ≤ j ∧ a ++ [j] <+: b := by
  induction es generalizing i with
  | nil => cases h
  | cons c es ihes =>
      rw [occurrencesFrom, List.map_append, List.mem_append] at h
      rcases h with h | h
      · exact ⟨i, Nat.le_refl i, ih c List.mem_cons_self _ b h⟩
      · obtain ⟨j, hj, hbelow⟩ := ihes (fun d hd => ih d (List.mem_cons_of_mem c hd)) h
        exact ⟨j, by omega, hbelow⟩

/-- What occurs in the tree at an address stands below that address. -/
theorem prefix_of_mem_occurrences (h : b ∈ (e.occurrences a).map (·.1)) : a <+: b := by
  induction e using child_induction generalizing a b with
  | node e ih =>
      rw [occurrences_eq, List.map_append, List.mem_append] at h
      rcases h with h | h
      · obtain ⟨j, -, hbelow⟩ :=
          exists_prefix_of_mem_occurrencesFrom (fun c hc a b hb => ih c hc hb) h
        exact (List.prefix_append a [j]).trans hbelow
      · obtain rfl : b = a := by simpa using h
        exact List.prefix_refl b

theorem nodup_occurrencesFrom
    (ih : ∀ c ∈ es, ∀ a, ((c.occurrences a).map (·.1)).Nodup) :
    ((occurrencesFrom a i es).map (·.1)).Nodup := by
  induction es generalizing i with
  | nil => exact List.nodup_nil
  | cons c es ihes =>
      rw [occurrencesFrom, List.map_append, List.nodup_append]
      refine ⟨ih c List.mem_cons_self _, ihes fun d hd => ih d (List.mem_cons_of_mem c hd), ?_⟩
      rintro b hb _ hb' rfl
      obtain ⟨j, hj, hbelow⟩ := exists_prefix_of_mem_occurrencesFrom
        (fun d _ a b hb => prefix_of_mem_occurrences hb) hb'
      have hsame : a ++ [i] = a ++ [j] :=
        List.IsPrefix.eq_of_length
          (List.prefix_of_prefix_length_le (prefix_of_mem_occurrences hb) hbelow (by simp))
          (by simp)
      have : i = j := by simpa using hsame
      omega

/-- No address is listed twice. -/
theorem nodup_occurrences (a : Address) (e : Expr) :
    ((e.occurrences a).map (·.1)).Nodup := by
  induction e using child_induction generalizing a with
  | node e ih =>
      rw [occurrences_eq, List.map_append, List.nodup_append]
      refine ⟨nodup_occurrencesFrom ih, by simp, ?_⟩
      rintro b hb _ hb' rfl
      obtain rfl : b = a := by simpa using hb'
      obtain ⟨j, -, hbelow⟩ := exists_prefix_of_mem_occurrencesFrom
        (fun d _ a b hb => prefix_of_mem_occurrences hb) hb
      have hlength := hbelow.length_le
      rw [List.length_append, List.length_singleton] at hlength
      omega

end Addresses

end Expr
end Criteria
