import Criteria.Proofs.Expansion

/-!
# The first culprit

Replacing the placeholders of a tree looks them up in the order in which the tree lists
them, a call before its arguments, and stops at the first that cannot be bound.  Nothing
else stops it: what stands for a placeholder is never a set literal, so a set literal can
be built again, and replacing arguments does not change their number, so a call can be
completed.  A tree whose placeholders are all good therefore fails in the checks of its
kinds or not at all.

**Results.**
* `isSet_instantiate`: plain substitution makes no set literal of anything else.
* `toCheck_instantiate`: it fails exactly as looking up the placeholders in turn does.
* `targetAll_eq_ok_iff`, `targetAll_eq_error_iff`: where looking them up fails.
* `bind_reports_culprit`: the outcome of binding.
-/

namespace Criteria

open Outcome

section Lookups

variable (space : Namespace) (locale : Option String)

/-- Looks up placeholders in turn, up to the first that cannot be bound. -/
def targetAll : List (Placeholder Expr) → Except BindingError Unit
  | [] => pure ()
  | p :: ps => do
      toCheck (p.target space locale)
      targetAll ps

variable {space locale} {ps before after : List (Placeholder Expr)}
  {p : Placeholder Expr} {err : BindingError}

theorem targetAll_append (ps qs : List (Placeholder Expr)) :
    targetAll space locale (ps ++ qs) =
      (targetAll space locale ps >>= fun _ => targetAll space locale qs) := by
  induction ps with
  | nil => rfl
  | cons p ps ih => rw [List.cons_append, targetAll, targetAll, ih, bind_assoc]

theorem targetAll_eq_ok_iff :
    targetAll space locale ps = .ok () ↔ ∀ p ∈ ps, p.Good space locale := by
  induction ps with
  | nil => simp [targetAll, pure, Except.pure]
  | cons p ps ih =>
      rw [targetAll, check_bind_eq_ok_iff, toCheck_eq_ok_iff,
        Placeholder.exists_target_iff, ih, List.forall_mem_cons]

/-- The first placeholder that is not good is the one that is reported. -/
theorem targetAll_eq_error_iff (hbefore : ∀ q ∈ before, q.Good space locale)
    (hp : ¬ p.Good space locale) :
    targetAll space locale (before ++ p :: after) = .error err ↔
      p.Fails space locale err := by
  have hgood : targetAll space locale before = .ok () := targetAll_eq_ok_iff.mpr hbefore
  rw [targetAll_append, hgood, ← Placeholder.target_eq_error_iff]
  show targetAll space locale (p :: after) = .error err ↔ _
  rw [targetAll, bind_eq_error_iff, toCheck_eq_error_iff, or_iff_left]
  rintro ⟨⟨⟩, hfound, -⟩
  exact hp (Placeholder.exists_target_iff.mp (toCheck_eq_ok_iff.mp hfound))

/-- What is reported is reported of some placeholder. -/
theorem exists_fails_of_targetAll (h : targetAll space locale ps = .error err) :
    ∃ p ∈ ps, p.Fails space locale err := by
  induction ps with
  | nil => cases h
  | cons p ps ih =>
      rcases bind_eq_error_iff.mp h with hp | ⟨⟨⟩, -, hps⟩
      · exact ⟨p, List.mem_cons_self,
          Placeholder.target_eq_error_iff.mp (toCheck_eq_error_iff.mp hp)⟩
      · obtain ⟨q, hq, hfails⟩ := ih hps
        exact ⟨q, List.mem_cons_of_mem p hq, hfails⟩

end Lookups

namespace Expr

variable {space : Namespace} {locale : Option String}

section Unfailing

variable {e u : Expr} {es us : List Expr}

/-- Plain substitution makes no set literal of anything else. -/
theorem isSet_instantiate (h : e.instantiate space locale = .ok u) :
    u.isSet = e.isSet := by
  cases rebuilt_of_instantiate h <;> rfl

/-- A set literal can be built again from its members after substitution. -/
theorem toCheck_ofMembers (hes : ∀ e ∈ es, e.isSet = false)
    (h : instantiateAll space locale es = .ok us) :
    toCheck ((ofMembers us).mapError BindingError.construction) = pure () := by
  have hall := instantiateAll_eq_ok_iff.mp h
  have hus : ∀ u ∈ us, u.isSet = false := by
    intro u hu
    obtain ⟨e, he, heu⟩ := exists_left_of_forall₂ hall hu
    rw [isSet_instantiate heu]
    exact hes e he
  obtain ⟨kept, hkept⟩ := (Distinct.collect_ok_iff isSet us).mpr hus
  rw [ofMembers_eq_ok_iff.mpr ⟨kept, hkept, rfl⟩]
  rfl

/-- A target takes the arguments of its placeholder after substitution. -/
theorem toCheck_ofTarget {p : Placeholder Expr} {path : Path} {symbol : Symbol}
    (htarget : p.target space locale = .ok (path, symbol))
    (hlength : us.length = p.argumentList.length) :
    toCheck (ofTarget path us symbol) = pure () := by
  have hsuits := (Placeholder.target_eq_ok_iff.mp htarget).2.2.2
  cases symbol with
  | «variable» template => rfl
  | function template =>
      rw [Placeholder.Suits, ← hlength] at hsuits
      rw [ofTarget_function_eq_ok_iff.mpr ⟨hsuits, rfl⟩]
      rfl

end Unfailing

section Order

theorem toCheck_instantiateAll {es : List Expr}
    (h : ∀ e ∈ es, toCheck (e.instantiate space locale) =
      targetAll space locale e.placeholders) :
    toCheck (instantiateAll space locale es) =
      targetAll space locale (placeholdersAll es) := by
  induction es with
  | nil => rfl
  | cons e es ih =>
      have hrest := ih fun x hx => h x (List.mem_cons_of_mem e hx)
      rw [placeholdersAll, targetAll_append, ← h e List.mem_cons_self, ← hrest,
        instantiateAll]
      exact toCheck_bind fun u _ => toCheck_bind_of_ok fun us _ => rfl

/-- Plain substitution fails exactly as looking up the placeholders in turn does. -/
theorem toCheck_instantiate {e : Expr} (he : e.Built) :
    toCheck (e.instantiate space locale) = targetAll space locale e.placeholders := by
  induction he with
  | @node e hhere hparts ih =>
      match e with
      | .constant (.string _) => rfl
      | .constant (.number _) => rfl
      | .constant (.set members) =>
          -- The members are no set literals, and substitution keeps them so.
          rw [instantiate, placeholders,
            ← toCheck_instantiateAll fun x (hx : x ∈ members) => ih x hx]
          exact toCheck_bind_of_ok fun us hus => toCheck_ofMembers hhere.2 hus
      | .placeholder ⟨scope, name, none⟩ =>
          rw [instantiate, placeholders, targetAll, targetAll]
          exact toCheck_bind fun found htarget => toCheck_ofTarget htarget rfl
      | .placeholder ⟨scope, name, some arguments⟩ =>
          -- The call is looked up before its arguments, with as many as it is given later.
          rw [instantiate, placeholders, targetAll,
            ← toCheck_instantiateAll fun x (hx : x ∈ arguments) => ih x hx]
          refine toCheck_bind fun found htarget => toCheck_bind_of_ok fun us hus => ?_
          have hlength := (instantiateAll_eq_ok_iff.mp hus).length_eq
          exact toCheck_ofTarget htarget hlength.symm
      | .variable _ _ => rfl
      | .call path template arguments =>
          rw [instantiate, placeholders,
            ← toCheck_instantiateAll fun x hx => ih x (argument_mem_parts hx)]
          exact toCheck_bind_of_ok fun us _ => rfl
      | .not operand =>
          rw [instantiate, placeholders, ← ih operand (operand_mem_parts operand)]
          exact toCheck_bind_of_ok fun u _ => rfl
      | .binary op left right =>
          rw [instantiate, placeholders, targetAll_append,
            ← ih left (left_mem_parts op left right),
            ← ih right (right_mem_parts op left right)]
          exact toCheck_bind fun u _ => toCheck_bind_of_ok fun v _ => rfl

end Order

section Bind

variable {e u : Expr} {err : BindingError}

theorem bind_of_instantiate_error (he : e.Built)
    (h : e.instantiate space locale = .error err) :
    e.bind space locale = .error err := by
  rw [bind_eq_instantiate he, h]
  rfl

theorem bind_of_instantiate_ok (he : e.Built)
    (h : e.instantiate space locale = .ok u) :
    e.bind space locale = ((check u).mapError .type).map fun _ => u := by
  rw [bind_eq_instantiate he, h]
  rfl

/-- With good placeholders, only the checks of the kinds can fail. -/
theorem bind_of_good (he : e.Built)
    (h : ∀ p ∈ e.placeholders, p.Good space locale) :
    ∃ u, e.expand space locale = some u ∧
      e.bind space locale = ((check u).mapError .type).map fun _ => u := by
  have hlookups : toCheck (e.instantiate space locale) = .ok () := by
    rw [toCheck_instantiate he]
    exact targetAll_eq_ok_iff.mpr h
  obtain ⟨u, hu⟩ := toCheck_eq_ok_iff.mp hlookups
  exact ⟨u, expand_eq_some_iff.mpr hu, bind_of_instantiate_ok he hu⟩

/-- The first placeholder that is not good stops binding with what is reported of it. -/
theorem bind_of_culprit (he : e.Built) {before after : List (Placeholder Expr)}
    {p : Placeholder Expr} (hsplit : e.placeholders = before ++ p :: after)
    (hbefore : ∀ q ∈ before, q.Good space locale) (hp : ¬ p.Good space locale)
    (hfails : p.Fails space locale err) : e.bind space locale = .error err := by
  apply bind_of_instantiate_error he
  rw [← toCheck_eq_error_iff, toCheck_instantiate he, hsplit]
  exact (targetAll_eq_error_iff hbefore hp).mpr hfails

/-- Whatever stops binding is reported of a placeholder or of the kinds. -/
theorem exists_fails_of_bind (he : e.Built) (h : e.bind space locale = .error err) :
    (∃ cause, err = .type cause) ∨
      ∃ p ∈ e.placeholders, p.Fails space locale err := by
  cases hsubst : e.instantiate space locale with
  | error err' =>
      rw [bind_of_instantiate_error he hsubst] at h
      cases h
      rw [← toCheck_eq_error_iff, toCheck_instantiate he] at hsubst
      exact .inr (exists_fails_of_targetAll hsubst)
  | ok u =>
      rw [bind_of_instantiate_ok he hsubst] at h
      cases hcheck : check u with
      | error cause =>
          rw [hcheck] at h
          cases h
          exact .inl ⟨cause, rfl⟩
      | ok _ =>
          rw [hcheck] at h
          cases h

end Bind

/-- Binding a built tree whose placeholders are all good ends in the checks of its
expansion.  Otherwise it ends in the one error that is reported of the first placeholder
that is not good.  No set literal and no call is refused after its parts are bound. -/
theorem bind_reports_culprit {e : Expr} (he : e.Built) :
    ((∀ p ∈ e.placeholders, p.Good space locale) →
      ∃ u, e.expand space locale = some u ∧
        (check u = .ok () ∧ e.bind space locale = .ok u ∨
          ∃ cause, check u = .error cause ∧
            e.bind space locale = .error (.type cause))) ∧
    (∀ before p after, e.placeholders = before ++ p :: after →
      (∀ q ∈ before, q.Good space locale) → ¬ p.Good space locale →
        ∃ err, e.bind space locale = .error err ∧
          ∀ cause, p.Fails space locale cause ↔ cause = err) ∧
    (∀ member,
      e.bind space locale ≠ .error (.construction (.nestedSet member))) ∧
    ∀ name least most found,
      e.bind space locale ≠ .error (.construction (.arity name least most found)) := by
  refine ⟨?_, ?_, ?_, ?_⟩
  · intro hgood
    obtain ⟨u, hu, hbind⟩ := bind_of_good he hgood
    refine ⟨u, hu, ?_⟩
    rw [hbind]
    cases hcheck : check u with
    | ok _ => exact .inl ⟨rfl, rfl⟩
    | error cause => exact .inr ⟨cause, rfl, rfl⟩
  · intro before p after hsplit hbefore hp
    obtain ⟨err, hfails⟩ := (Placeholder.good_or_fails space locale p).resolve_left hp
    refine ⟨err, bind_of_culprit he hsplit hbefore hp hfails, fun cause => ?_⟩
    rw [← Placeholder.target_eq_error_iff, hfails.target, Except.error.injEq, eq_comm]
  · intro member h
    obtain ⟨cause, hcause⟩ | ⟨p, -, hfails⟩ := exists_fails_of_bind he h
    · cases hcause
    · cases hfails
  · intro name least most found h
    obtain ⟨cause, hcause⟩ | ⟨p, -, hfails⟩ := exists_fails_of_bind he h
    · cases hcause
    · cases hfails

/-- Two members of a set literal lead nowhere; the first of them is reported. -/
theorem bind_reports_culprit_held :
    let status : Object := Object.ofSymbol (.variable ⟨⟨["status"]⟩, none⟩)
    let d : Draft := Draft.root.bind status
    let name (s : String) : Placeholder Expr := ⟨[], ⟨[s]⟩, none⟩
    let closed : Expr := .set [.placeholder (name "held"), .placeholder (name "lost")]
    let e : Expr := .binary .belongsTo (.placeholder (name "status")) closed
    ∃ space, d.register = .ok space ∧ e.Built ∧
      e.bind space none = .error (.unbound "held" ⟨"held", .symbol, []⟩ none) := by
  intro status d name closed e
  have hspace : ∃ space, d.register = .ok space ∧ space.path = [] ∧
      space.resolve none ["status"] = some status.symbol ∧
      space.object? none "held" = none := by
    simp only [d, status]
    exact ⟨_, rfl, rfl, rfl, rfl⟩
  obtain ⟨space, hregister, hpath, hstatus, hheld⟩ := hspace
  have hset : closed.Built := by
    refine Built.node (builtHere_set_iff.mpr ⟨closed.children, rfl⟩) ?_
    intro m hm
    rcases List.mem_pair.mp hm with rfl | rfl <;> exact built_leaf rfl
  have he : e.Built := by
    refine Built.node trivial ?_
    intro x hx
    rcases List.mem_pair.mp hx with rfl | rfl
    · exact built_leaf rfl
    · exact hset
  have hgood : (name "status").Good space none :=
    ⟨status.symbol, hstatus, by decide, rfl⟩
  have hhere : space.level? none [] = some space := rfl
  have hfails : (name "held").Fails space none
      (.unbound "held" ⟨"held", .symbol, []⟩ none) := by
    rw [← hpath]
    exact .unbound (Namespace.Lost.object hhere hheld)
  have hbefore : ∀ q ∈ [name "status"], q.Good space none := by
    intro q hq
    rw [List.mem_singleton.mp hq]
    exact hgood
  obtain ⟨err, hbind, hcause⟩ :=
    (bind_reports_culprit he).2.1 [name "status"] (name "held") [name "lost"] rfl
      hbefore hfails.not_good
  rw [← (hcause _).mp hfails] at hbind
  exact ⟨space, hregister, he, hbind⟩

end Expr
end Criteria
