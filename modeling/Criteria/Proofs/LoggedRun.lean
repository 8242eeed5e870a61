import Criteria.Context
import Criteria.Proofs.Outcome
import Mathlib.Data.List.Forall2

/-!
# Logged runs

To say in which order an action does its work, the work is written down: beside the action
stands another one that does the same and keeps a log besides its state.  A protocol says what
an action may write down that ends in a certain way.  An action keeps to a protocol when,
whatever the state and whatever the log already holds, the logged action ends as the plain one
does, and the protocol allows what it adds to the log with this end.

The laws give the protocol of a sequence from those of its steps.  So for each kind of log
only its protocol is left to look at, which says nothing of states.

**Results.**
* `logs_bind`: a sequence keeps to the protocol of its first step, then to that of its second.
* `logs_mapM`: a list keeps to the protocols of its members in turn.
* `Logs.withoutLog_eq`: keeping a log changes nothing.
-/

namespace Criteria

open Outcome

variable {ε σ ω α β : Type}

/-- The same end with a log besides the state. -/
def withLog (log : List ω) : EStateM.Result ε σ α → EStateM.Result ε (σ × List ω) α
  | .ok a s => .ok a (s, log)
  | .error cause s => .error cause (s, log)

/-- The same end with the log left out. -/
def withoutLog : EStateM.Result ε (σ × List ω) α → EStateM.Result ε σ α
  | .ok a p => .ok a p.1
  | .error cause p => .error cause p.1

/-- Does the same and enters how it ended in the log. -/
def noting (entry : Except ε α → ω) (x : EStateM ε σ α) : EStateM ε (σ × List ω) α := fun p =>
  match x p.1 with
  | .ok a s => .ok a (s, p.2 ++ [entry (.ok a)])
  | .error cause s => .error cause (s, p.2 ++ [entry (.error cause)])

section Ends

variable {r : EStateM.Result ε σ α}

theorem withoutLog_withLog (log : List ω) : withoutLog (withLog log r) = r := by
  cases r <;> rfl

theorem log_withLog (log : List ω) : (finalState (withLog log r)).2 = log := by
  cases r <;> rfl

theorem withoutLog_eq_ok_iff {r : EStateM.Result ε (σ × List ω) α} {a : α} {s : σ} :
    withoutLog r = .ok a s ↔ ∃ log, r = .ok a (s, log) := by
  cases r with
  | ok b p =>
      obtain ⟨s', log⟩ := p
      simp [withoutLog]
  | error cause p => simp [withoutLog]

theorem noting_apply (entry : Except ε α → ω) (x : EStateM ε σ α) (s : σ) (log : List ω) :
    noting entry x (s, log) = withLog (log ++ [entry (answer (x s))]) (x s) := by
  rw [noting]
  cases x s <;> rfl

end Ends

section Protocols

/-- What an action may enter in a log, and how it may end with that. -/
abbrev Protocol (ε ω α : Type) : Type :=
  List ω → Except ε α → Prop

/-- To end in this way and enter nothing. -/
def Silently (r : Except ε α) : Protocol ε ω α :=
  fun added r' => added = [] ∧ r' = r

/-- To enter how it ends. -/
def Notes (entry : Except ε α → ω) : Protocol ε ω α :=
  fun added r => added = [entry r]

/-- To keep to one protocol and, with a result of it, to another one. -/
inductive Then (P : Protocol ε ω α) (Q : α → Protocol ε ω β) : Protocol ε ω β
  | stopped {added : List ω} {cause : ε} (h : P added (.error cause)) :
      Then P Q added (.error cause)
  | passed {first second : List ω} {a : α} {r : Except ε β} (h : P first (.ok a))
      (h' : Q a second r) : Then P Q (first ++ second) r

/-- To keep to a protocol for each member of a list in turn. -/
def Each {κ : Type} (P : κ → Protocol ε ω α) : List κ → Protocol ε ω (List α)
  | [] => Silently (.ok [])
  | k :: ks => Then (P k) fun a => Then (Each P ks) fun as => Silently (.ok (a :: as))

section Consequences

variable {P P' : Protocol ε ω α} {added : List ω}

theorem Then.imp {Q Q' : α → Protocol ε ω β} {r : Except ε β} (h : Then P Q added r)
    (hP : ∀ added r, P added r → P' added r)
    (hQ : ∀ a added r, Q a added r → Q' a added r) : Then P' Q' added r := by
  cases h with
  | stopped h => exact .stopped (hP _ _ h)
  | passed h h' => exact .passed (hP _ _ h) (hQ _ _ _ h')

/-- What goes from the end of a list to its front holds of the list. -/
theorem Each.imp {κ : Type} {P : κ → Protocol ε ω α} (R : List κ → Protocol ε ω (List α))
    (nil : R [] [] (.ok []))
    (cons : ∀ k ks added r,
      Then (P k) (fun a => Then (R ks) fun as => Silently (.ok (a :: as))) added r →
        R (k :: ks) added r)
    {ks : List κ} {r : Except ε (List α)} (h : Each P ks added r) : R ks added r := by
  induction ks generalizing added r with
  | nil =>
      obtain ⟨rfl, rfl⟩ := h
      exact nil
  | cons k ks ih =>
      refine cons k ks added r (h.imp (fun _ _ h => h) fun a added r h => ?_)
      exact h.imp (fun _ _ h => ih h) fun _ _ _ h => h

end Consequences

/-- The first action keeps to a protocol, and the second one does the same with a log. -/
def Logs (P : Protocol ε ω α) (x : EStateM ε σ α) (x' : EStateM ε (σ × List ω) α) : Prop :=
  ∀ s log, ∃ added, x' (s, log) = withLog (log ++ added) (x s) ∧ P added (answer (x s))

end Protocols

section Laws

variable {P : Protocol ε ω α} {x : EStateM ε σ α} {x' : EStateM ε (σ × List ω) α}

theorem Logs.withoutLog_eq (h : Logs P x x') (s : σ) (log : List ω) :
    withoutLog (x' (s, log)) = x s := by
  obtain ⟨added, hrun, -⟩ := h s log
  rw [hrun, withoutLog_withLog]

/-- What is on the log in the end, when nothing was at first. -/
theorem Logs.finalLog (h : Logs P x x') (s : σ) :
    P (finalState (x' (s, []))).2 (answer (x s)) := by
  obtain ⟨added, hrun, hadded⟩ := h s []
  rwa [hrun, log_withLog]

theorem Logs.mono {Q : Protocol ε ω α} (h : Logs P x x')
    (himp : ∀ added r, P added r → Q added r) : Logs Q x x' := by
  intro s log
  obtain ⟨added, hrun, hadded⟩ := h s log
  exact ⟨added, hrun, himp added _ hadded⟩

theorem logs_ofExcept (r : Except ε α) :
    Logs (Silently r) (ofExcept r : EStateM ε σ α)
      (ofExcept r : EStateM ε (σ × List ω) α) := by
  intro s log
  refine ⟨[], ?_, rfl, ?_⟩
  · rw [List.append_nil]
    cases r <;> rfl
  · cases r <;> rfl

theorem logs_pure (a : α) :
    Logs (Silently (.ok a)) (pure a : EStateM ε σ α) (pure a : EStateM ε (σ × List ω) α) :=
  logs_ofExcept (.ok a)

theorem logs_throw (cause : ε) :
    Logs (Silently (.error cause)) (throw cause : EStateM ε σ α)
      (throw cause : EStateM ε (σ × List ω) α) :=
  logs_ofExcept (.error cause)

theorem logs_noting (entry : Except ε α → ω) (x : EStateM ε σ α) :
    Logs (Notes entry) x (noting entry x) := by
  intro s log
  exact ⟨_, noting_apply entry x s log, rfl⟩

/-- A change of the state alone is no work. -/
theorem logs_modify (f : σ → σ) (h : Logs P x x') :
    Logs P (do modify f; x) (do modify fun p : σ × List ω => (f p.1, p.2); x') :=
  fun s log => h (f s) log

theorem logs_bind {Q : α → Protocol ε ω β} {f : α → EStateM ε σ β}
    {f' : α → EStateM ε (σ × List ω) β} (hx : Logs P x x')
    (hf : ∀ a, Logs (Q a) (f a) (f' a)) : Logs (Then P Q) (x >>= f) (x' >>= f') := by
  intro s log
  obtain ⟨first, hrun, hfirst⟩ := hx s log
  cases hr : x s with
  | ok a s₁ =>
      rw [hr] at hrun hfirst
      obtain ⟨second, hrun', hsecond⟩ := hf a s₁ (log ++ first)
      refine ⟨first ++ second, ?_, ?_⟩
      · rw [run_bind_of_ok hrun, hrun', run_bind_of_ok hr, List.append_assoc]
      · rw [run_bind_of_ok hr]
        exact .passed hfirst hsecond
  | error cause s₁ =>
      rw [hr] at hrun hfirst
      refine ⟨first, ?_, ?_⟩
      · rw [run_bind_of_error hrun, run_bind_of_error hr]
        rfl
      · rw [run_bind_of_error hr]
        exact .stopped hfirst

/-- A list in turn, each member with the protocol of what it stands for. -/
theorem logs_mapM {ι κ : Type} {P : κ → Protocol ε ω α} {f : ι → EStateM ε σ α}
    {f' : ι → EStateM ε (σ × List ω) α} {ks : List κ} {is : List ι}
    (h : List.Forall₂ (fun k i => Logs (P k) (f i) (f' i)) ks is) :
    Logs (Each P ks) (is.mapM f) (is.mapM f') := by
  induction h with
  | nil => exact logs_pure []
  | @cons k i ks is hfirst _ ih =>
      rw [List.mapM_cons, List.mapM_cons, Each]
      exact logs_bind hfirst fun a => logs_bind ih fun as => logs_pure (a :: as)

/-- The members of a list with what they are paired with, as far as that goes. -/
theorem logs_mapM_zip {ι κ : Type} {P : ι → Protocol ε ω α} {f : κ × ι → EStateM ε σ α}
    {f' : κ × ι → EStateM ε (σ × List ω) α} (ks : List κ) {is : List ι}
    (h : ∀ k, ∀ i ∈ is, Logs (P i) (f (k, i)) (f' (k, i))) :
    Logs (Each P (is.take ks.length)) ((ks.zip is).mapM f) ((ks.zip is).mapM f') := by
  apply logs_mapM
  induction is generalizing ks with
  | nil => simp
  | cons i is ih =>
      cases ks with
      | nil => simp
      | cons k ks =>
          rw [List.length_cons, List.take_succ_cons, List.zip_cons_cons]
          refine .cons (h k i List.mem_cons_self) (ih ks ?_)
          exact fun k' i' hi' => h k' i' (List.mem_cons_of_mem i hi')

end Laws

end Criteria
