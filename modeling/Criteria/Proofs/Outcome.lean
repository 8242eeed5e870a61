import Criteria.Assignment

/-!
# Outcomes

Checks end in `Except` and evaluations in `EStateM`.  The laws here take apart a
sequence of two steps: it succeeds exactly when both do, and otherwise it fails as the
first step that fails.

**Results.**
* `bind_eq_ok_iff`, `run_bind_eq_ok_iff`: a sequence succeeds when its steps do.
* `toCheck_bind`: how a sequence fails.
* `forM_eq_error_iff`: a list fails as the first member that fails.
* `bind_eq_none_iff`: when nothing comes out of a sequence.
* `run_bind_of_ok`, `run_bind_of_error`: how a sequence goes on after its first step.
* `answer_bind`: what a sequence answers.
-/

namespace Criteria
namespace Outcome

variable {ε ε' σ α β γ : Type}

section Checks

theorem bind_eq_ok_iff {x : Except ε α} {f : α → Except ε β} {b : β} :
    (x >>= f) = .ok b ↔ ∃ a, x = .ok a ∧ f a = .ok b := by
  cases x with
  | error e => simp [bind, Except.bind]
  | ok a => simp [bind, Except.bind]

/-- A sequence has a result when its first step has one from which the second has. -/
theorem exists_bind_eq_ok_iff {x : Except ε α} {f : α → Except ε β} :
    (∃ b, (x >>= f) = .ok b) ↔ ∃ a, x = .ok a ∧ ∃ b, f a = .ok b := by
  simp only [bind_eq_ok_iff]
  constructor
  · rintro ⟨b, a, hx, hf⟩
    exact ⟨a, hx, b, hf⟩
  · rintro ⟨a, hx, b, hf⟩
    exact ⟨b, a, hx, hf⟩

theorem exists_pure_eq_ok (a : α) : ∃ b, (pure a : Except ε α) = .ok b :=
  ⟨a, rfl⟩

/-- Two checks in turn pass when both pass. -/
theorem check_bind_eq_ok_iff {x : Except ε Unit} {y : Except ε Unit} :
    (x >>= fun _ => y) = .ok () ↔ x = .ok () ∧ y = .ok () := by
  rw [bind_eq_ok_iff]
  constructor
  · rintro ⟨⟨⟩, hx, hy⟩
    exact ⟨hx, hy⟩
  · rintro ⟨hx, hy⟩
    exact ⟨(), hx, hy⟩

/-- A sequence fails when its first step fails or else its second. -/
theorem bind_eq_error_iff {x : Except ε α} {f : α → Except ε β} {e : ε} :
    (x >>= f) = .error e ↔ x = .error e ∨ ∃ a, x = .ok a ∧ f a = .error e := by
  cases x with
  | error e' => simp [bind, Except.bind]
  | ok a => simp [bind, Except.bind]

theorem toOption_eq_some_iff {x : Except ε α} {a : α} :
    x.toOption = some a ↔ x = .ok a := by
  cases x <;> simp [Except.toOption]

theorem mapError_ok (f : ε → ε') (a : α) :
    (Except.ok a : Except ε α).mapError f = .ok a := by
  rfl

theorem mapError_error (f : ε → ε') (e : ε) :
    (Except.error e : Except ε α).mapError f = .error (f e) := by
  rfl

theorem mapError_eq_ok_iff {x : Except ε α} {f : ε → ε'} {a : α} :
    x.mapError f = .ok a ↔ x = .ok a := by
  cases x with
  | error e => simp [mapError_error]
  | ok b => simp [mapError_ok]

/-- Renaming the failures of a sequence renames those of its steps. -/
theorem mapError_bind (x : Except ε α) (f : α → Except ε β) (g : ε → ε') :
    (x >>= f).mapError g = (x.mapError g >>= fun a => (f a).mapError g) := by
  cases x <;> rfl

/-- A step of which only the failure matters. -/
def toCheck (x : Except ε α) : Except ε Unit :=
  x.map fun _ => ()

theorem toCheck_eq_ok_iff {x : Except ε α} :
    toCheck x = .ok () ↔ ∃ a, x = .ok a := by
  cases x <;> simp [toCheck, Except.map]

theorem toCheck_eq_error_iff {x : Except ε α} {e : ε} :
    toCheck x = .error e ↔ x = .error e := by
  cases x <;> simp [toCheck, Except.map]

/-- A sequence fails as its first step does, or as the second does from any result. -/
theorem toCheck_bind {x : Except ε α} {f : α → Except ε β} {y : Except ε Unit}
    (h : ∀ a, x = .ok a → toCheck (f a) = y) :
    toCheck (x >>= f) = (toCheck x >>= fun _ => y) := by
  cases x with
  | error e => rfl
  | ok a => exact h a rfl

/-- A sequence fails as its first step does, when the second never fails. -/
theorem toCheck_bind_of_ok {x : Except ε α} {f : α → Except ε β}
    (h : ∀ a, x = .ok a → toCheck (f a) = pure ()) :
    toCheck (x >>= f) = toCheck x := by
  rw [toCheck_bind h, bind_pure_unit]

end Checks

section Lists

variable {f : α → Except ε Unit} {xs : List α}

/-- The members of a list pass in turn when all of them pass. -/
theorem forM_eq_ok_iff : forM xs f = .ok () ↔ ∀ x ∈ xs, f x = .ok () := by
  induction xs with
  | nil => simp [pure, Except.pure]
  | cons x xs ih => rw [List.forM_cons, check_bind_eq_ok_iff, ih, List.forall_mem_cons]

/-- The members of a list fail in turn as the first one does that fails. -/
theorem forM_eq_error_iff {e : ε} :
    forM xs f = .error e ↔
      ∃ before x after, xs = before ++ x :: after ∧ (∀ b ∈ before, f b = .ok ()) ∧
        f x = .error e := by
  induction xs with
  | nil => simp [pure, Except.pure]
  | cons x xs ih =>
      rw [List.forM_cons, bind_eq_error_iff]
      constructor
      · rintro (hx | ⟨⟨⟩, hx, hxs⟩)
        · exact ⟨[], x, xs, rfl, by simp, hx⟩
        · obtain ⟨before, y, after, rfl, hbefore, hy⟩ := ih.mp hxs
          refine ⟨x :: before, y, after, rfl, ?_, hy⟩
          exact List.forall_mem_cons.mpr ⟨hx, hbefore⟩
      · rintro ⟨before, y, after, hsplit, hbefore, hy⟩
        cases before with
        | nil =>
            cases hsplit
            exact .inl hy
        | cons b before =>
            cases hsplit
            obtain ⟨hb, hbefore⟩ := List.forall_mem_cons.mp hbefore
            exact .inr ⟨(), hb, ih.mpr ⟨before, y, after, rfl, hbefore, hy⟩⟩

end Lists

section Nothing

variable {x : Except ε (Option α)} {y : Except ε (Option β)}

/-- When the second step makes nothing only of nothing, so do both in turn. -/
theorem bind_eq_none_iff {f : Option α → Except ε (Option γ)}
    (h : ∀ a, f a = .ok none ↔ a = none) :
    (x >>= f) = .ok none ↔ x = .ok none := by
  rw [bind_eq_ok_iff]
  constructor
  · rintro ⟨a, hx, hf⟩
    rw [hx, (h a).mp hf]
  · intro hx
    exact ⟨none, hx, (h none).mpr rfl⟩

/-- When something is made of two results as soon as one of them is something, nothing comes
out exactly if there is nothing in both. -/
theorem bind_bind_eq_none_iff {f : Option α → Option β → Except ε (Option γ)}
    (h : ∀ a b, f a b = .ok none ↔ a = none ∧ b = none) :
    (x >>= fun a => y >>= f a) = .ok none ↔ x = .ok none ∧ y = .ok none := by
  rw [bind_eq_ok_iff]
  constructor
  · rintro ⟨a, hx, hrest⟩
    obtain ⟨b, hy, hf⟩ := bind_eq_ok_iff.mp hrest
    obtain ⟨rfl, rfl⟩ := (h a b).mp hf
    exact ⟨hx, hy⟩
  · rintro ⟨hx, hy⟩
    exact ⟨none, hx, bind_eq_ok_iff.mpr ⟨none, hy, (h none none).mpr ⟨rfl, rfl⟩⟩⟩

end Nothing

section Runs

variable {x : EStateM ε σ α} {f : α → EStateM ε σ β} {s s₁ s' : σ}

theorem run_bind_of_ok {a : α} (h : x s = .ok a s₁) : (x >>= f) s = f a s₁ := by
  show EStateM.bind x f s = f a s₁
  simp only [EStateM.bind, h]

theorem run_bind_of_error {e : ε} (h : x s = .error e s₁) :
    (x >>= f) s = .error e s₁ := by
  show EStateM.bind x f s = .error e s₁
  simp only [EStateM.bind, h]

theorem run_bind_eq_ok_iff {b : β} :
    (x >>= f) s = .ok b s' ↔ ∃ a s₁, x s = .ok a s₁ ∧ f a s₁ = .ok b s' := by
  cases h : x s with
  | ok a s₁ =>
      rw [run_bind_of_ok h]
      constructor
      · intro hf
        exact ⟨a, s₁, rfl, hf⟩
      · rintro ⟨a', s₁', he, hf⟩
        cases he
        exact hf
  | error e s₁ =>
      rw [run_bind_of_error h]
      constructor
      · intro hf
        cases hf
      · rintro ⟨a', s₁', he, -⟩
        cases he

theorem run_pure (a : α) (s : σ) : (pure a : EStateM ε σ α) s = .ok a s := by
  rfl

theorem run_ofExcept_ok (a : α) (s : σ) :
    (ofExcept (.ok a) : EStateM ε σ α) s = .ok a s := by
  rfl

theorem run_ofExcept_error (e : ε) (s : σ) :
    (ofExcept (.error e) : EStateM ε σ α) s = .error e s := by
  rfl

theorem run_ofExcept_eq_ok_iff {r : Except ε α} {a : α} :
    (ofExcept r : EStateM ε σ α) s = .ok a s' ↔ r = .ok a ∧ s' = s := by
  cases r with
  | error e => simp [run_ofExcept_error]
  | ok b => simp [run_ofExcept_ok, eq_comm]

end Runs

end Outcome

open Outcome

/-- What a run answers, apart from the state that it ends in. -/
def answer {ε σ α : Type} : EStateM.Result ε σ α → Except ε α
  | .ok a _ => .ok a
  | .error e _ => .error e

section Answers

variable {ε σ α β : Type}

theorem answer_eq_ok_iff {r : EStateM.Result ε σ α} {a : α} :
    answer r = .ok a ↔ ∃ s, r = .ok a s := by
  cases r <;> simp [answer]

theorem answer_eq_error_iff {r : EStateM.Result ε σ α} {e : ε} :
    answer r = .error e ↔ ∃ s, r = .error e s := by
  cases r <;> simp [answer]

theorem answer_ofExcept (x : Except ε α) (s : σ) :
    answer ((ofExcept x : EStateM ε σ α) s) = x := by
  cases x <;> rfl

/-- Two steps answer in turn, if the second answers alike in every state. -/
theorem answer_bind {x : EStateM ε σ α} {f : α → EStateM ε σ β} {y : Except ε α}
    {g : α → Except ε β} {s : σ} (hx : answer (x s) = y)
    (hf : ∀ a s₁, answer (f a s₁) = g a) :
    answer ((x >>= f) s) = (y >>= g) := by
  subst hx
  cases h : x s with
  | ok a s₁ =>
      rw [run_bind_of_ok h]
      exact hf a s₁
  | error e s₁ =>
      rw [run_bind_of_error h]
      rfl

end Answers

end Criteria
