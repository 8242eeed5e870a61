import Criteria.Binding
import Criteria.Proofs.Lookup

/-!
# Targets of placeholders

A placeholder is bound to the symbol that its full path resolves to.  Three things can be
wrong with it, and they are looked for in this order: the path leads nowhere, a segment of
it is no valid name, or the symbol does not take the arguments.

**Results.**
* `Namespace.locate_eq_error_iff`: which segment a search reports as missing.
* `target_eq_ok_iff`: what a placeholder is bound to.
* `target_eq_error_iff`: what is reported of a placeholder that cannot be bound.
* `exists_target_iff`: a placeholder can be bound exactly when nothing is wrong with it.
-/

namespace Criteria

open Outcome

namespace Namespace

variable {n level : Namespace} {locale : Option String} {path : List String}
  {missing : Missing}

/-- Where a path leads nowhere: at the first of its segments without an entry at the level
that the segments before it lead to.  An empty path lacks its object. -/
inductive Lost (n : Namespace) (locale : Option String) : List String → Missing → Prop
  | empty : Lost n locale [] ⟨"", .object, n.path⟩
  | object {before : List String} {name : String} {level : Namespace}
      (hlevel : n.level? locale before = some level)
      (hname : level.object? locale name = none) :
      Lost n locale (before ++ [name]) ⟨name, .symbol, level.path⟩
  | space {before : List String} {segment next : String} {rest : List String}
      {level : Namespace}
      (hlevel : n.level? locale before = some level)
      (hsegment : level.space? locale segment = none) :
      Lost n locale (before ++ segment :: next :: rest) ⟨segment, .space, level.path⟩

theorem level?_cons_eq_some_iff {segment : String} {rest : List String} :
    n.level? locale (segment :: rest) = some level ↔
      ∃ s, n.space? locale segment = some s ∧ s.level? locale rest = some level := by
  rw [level?]
  cases n.space? locale segment <;> simp

/-- A search goes on from the level that the first segments lead to. -/
theorem locate_append {before rest : List String}
    (h : n.level? locale before = some level) (hrest : rest ≠ []) :
    n.locate locale (before ++ rest) = level.locate locale rest := by
  induction before generalizing n with
  | nil =>
      cases h
      rfl
  | cons segment before ih =>
      obtain ⟨s, hs, h⟩ := level?_cons_eq_some_iff.mp h
      obtain ⟨next, after, hnext⟩ :=
        List.exists_cons_of_ne_nil (List.append_ne_nil_of_right_ne_nil before hrest)
      rw [← ih h, List.cons_append, hnext, locate_cons, hs]

theorem locate_of_lost (h : n.Lost locale path missing) :
    n.locate locale path = .error missing := by
  cases h with
  | empty => rfl
  | object hlevel hname =>
      rw [locate_append hlevel (List.cons_ne_nil _ _), locate_single, hname]
  | space hlevel hsegment =>
      rw [locate_append hlevel (List.cons_ne_nil _ _), locate_cons, hsegment]

theorem Lost.cons {s : Namespace} {segment : String}
    (hs : n.space? locale segment = some s) (h : s.Lost locale path missing)
    (hpath : path ≠ []) : n.Lost locale (segment :: path) missing := by
  cases h with
  | empty => exact absurd rfl hpath
  | object hlevel hname =>
      exact Lost.object (level?_cons_eq_some_iff.mpr ⟨s, hs, hlevel⟩) hname
  | space hlevel hsegment =>
      exact Lost.space (level?_cons_eq_some_iff.mpr ⟨s, hs, hlevel⟩) hsegment

theorem lost_of_locate (h : n.locate locale path = .error missing) :
    n.Lost locale path missing := by
  induction path generalizing n with
  | nil =>
      cases h
      exact Lost.empty
  | cons segment rest ih =>
      cases rest with
      | nil =>
          rw [locate_single] at h
          cases hobject : n.object? locale segment with
          | some o =>
              rw [hobject] at h
              cases h
          | none =>
              rw [hobject] at h
              cases h
              have hhere : n.level? locale [] = some n := rfl
              exact Lost.object hhere hobject
      | cons next rest =>
          rw [locate_cons] at h
          cases hspace : n.space? locale segment with
          | some s =>
              rw [hspace] at h
              exact (ih h).cons hspace (List.cons_ne_nil next rest)
          | none =>
              rw [hspace] at h
              cases h
              have hhere : n.level? locale [] = some n := rfl
              exact Lost.space hhere hspace

/-- A search reports the first segment without an entry. -/
theorem locate_eq_error_iff :
    n.locate locale path = .error missing ↔ n.Lost locale path missing :=
  ⟨lost_of_locate, locate_of_lost⟩

end Namespace

namespace Placeholder

section Causes

variable (space : Namespace) (locale : Option String) (p : Placeholder Expr)

/-- All segments of the full path are valid. -/
def SegmentsValid : Prop :=
  ∀ s ∈ p.fullPath, Path.validSegment s = true

instance : Decidable p.SegmentsValid :=
  inferInstanceAs (Decidable (∀ s ∈ p.fullPath, Path.validSegment s = true))

/-- A symbol takes the arguments of a placeholder: a variable takes no list of arguments,
and a function as many as lie in its range. -/
def Suits : Symbol → Prop
  | .variable _ => p.arguments = none
  | .function template =>
      template.least ≤ p.argumentList.length ∧ p.argumentList.length ≤ template.most

/-- Nothing is wrong with a placeholder. -/
def Good : Prop :=
  ∃ symbol, space.resolve locale p.fullPath = some symbol ∧ p.SegmentsValid ∧
    p.Suits symbol

/-- What is reported of a placeholder.  Each cause is looked for only where those before
it do not apply. -/
inductive Fails : BindingError → Prop
  | unbound {missing : Missing} (h : space.Lost locale p.fullPath missing) :
      Fails (.unbound p.render missing locale)
  | invalid {symbol : Symbol}
      (hsymbol : space.resolve locale p.fullPath = some symbol)
      (h : ¬ p.SegmentsValid) :
      Fails (.construction (.invalidPath (Path.joinDots p.fullPath)))
  | notCallable {template : VariableTemplate} {arguments : List Expr}
      (hsymbol : space.resolve locale p.fullPath = some (.variable template))
      (hvalid : p.SegmentsValid) (h : p.arguments = some arguments) :
      Fails (.notCallable (Path.joinDots p.fullPath) arguments.length)
  | arity {template : FunctionTemplate Expr}
      (hsymbol : space.resolve locale p.fullPath = some (.function template))
      (hvalid : p.SegmentsValid) (h : ¬ p.Suits (.function template)) :
      Fails (.arity (Path.joinDots p.fullPath) template.least template.most
        p.argumentList.length)

end Causes

variable {space : Namespace} {locale : Option String} {p : Placeholder Expr}
  {path : Path} {symbol : Symbol} {missing : Missing} {err : BindingError}

theorem locate_eq_ok_iff :
    p.locate space locale = .ok symbol ↔
      space.resolve locale p.fullPath = some symbol := by
  rw [locate, mapError_eq_ok_iff, ← Namespace.toOption_locate, toOption_eq_some_iff]

theorem fullPath_ne_nil (h : space.resolve locale p.fullPath = some symbol) :
    p.fullPath ≠ [] := by
  intro hnil
  rw [hnil, Namespace.resolve_nil] at h
  cases h

section CheckCall

theorem checkCall_eq_ok_iff : p.checkCall path symbol = .ok () ↔ p.Suits symbol := by
  cases symbol with
  | «variable» template => exact checkCall_variable p path template
  | function template =>
      rw [checkCall, Suits]
      split
      · next h =>
          simp only [throw, throwThe, MonadExceptOf.throw, reduceCtorEq, false_iff]
          omega
      · next h =>
          simp only [pure, Except.pure, true_iff]
          omega

theorem checkCall_variable_of_call {template : VariableTemplate} {arguments : List Expr}
    (h : p.arguments = some arguments) :
    p.checkCall path (.variable template) =
      .error (.notCallable path.render arguments.length) := by
  rw [checkCall, h]
  rfl

theorem checkCall_function_of_not_suits {template : FunctionTemplate Expr}
    (h : ¬ p.Suits (.function template)) :
    p.checkCall path (.function template) =
      .error (.arity path.render template.least template.most
        p.argumentList.length) := by
  have hout : p.argumentList.length < template.least ∨
      template.most < p.argumentList.length := by
    rw [Suits] at h
    omega
  rw [checkCall, if_pos hout]
  rfl

end CheckCall

section Steps

theorem target_of_lost (h : space.Lost locale p.fullPath missing) :
    p.target space locale = .error (.unbound p.render missing locale) := by
  rw [target, locate, Namespace.locate_of_lost h]
  rfl

theorem target_of_invalid (hsymbol : space.resolve locale p.fullPath = some symbol)
    (h : ¬ p.SegmentsValid) :
    p.target space locale =
      .error (.construction (.invalidPath (Path.joinDots p.fullPath))) := by
  have hpath : Path.ofSegments p.fullPath =
      .error (.invalidPath (Path.joinDots p.fullPath)) := by
    rw [Path.ofSegments, if_pos]
    simpa [SegmentsValid] using Or.inr h
  rw [target, locate_eq_ok_iff.mpr hsymbol, hpath]
  rfl

theorem target_of_valid (hsymbol : space.resolve locale p.fullPath = some symbol)
    (hvalid : p.SegmentsValid) :
    p.target space locale =
      (p.checkCall ⟨p.fullPath⟩ symbol).map fun _ => (⟨p.fullPath⟩, symbol) := by
  have hpath : Path.ofSegments p.fullPath = .ok ⟨p.fullPath⟩ :=
    (Path.ofSegments_eq_ok_iff _ _).mpr ⟨rfl, fullPath_ne_nil hsymbol, hvalid⟩
  rw [target, locate_eq_ok_iff.mpr hsymbol, hpath]
  show (p.checkCall ⟨p.fullPath⟩ symbol >>= _) = _
  cases p.checkCall ⟨p.fullPath⟩ symbol <;> rfl

theorem target_of_suits (hsymbol : space.resolve locale p.fullPath = some symbol)
    (hvalid : p.SegmentsValid) (h : p.Suits symbol) :
    p.target space locale = .ok (⟨p.fullPath⟩, symbol) := by
  rw [target_of_valid hsymbol hvalid, checkCall_eq_ok_iff.mpr h]
  rfl

end Steps

/-- Each cause is reported as it stands. -/
theorem Fails.target (h : p.Fails space locale err) :
    p.target space locale = .error err := by
  cases h with
  | unbound h => exact target_of_lost h
  | invalid hsymbol h => exact target_of_invalid hsymbol h
  | notCallable hsymbol hvalid h =>
      rw [target_of_valid hsymbol hvalid, checkCall_variable_of_call h]
      rfl
  | arity hsymbol hvalid h =>
      rw [target_of_valid hsymbol hvalid, checkCall_function_of_not_suits h]
      rfl

/-- A placeholder is good, or one of the causes applies to it. -/
theorem good_or_fails (space : Namespace) (locale : Option String)
    (p : Placeholder Expr) : p.Good space locale ∨ ∃ err, p.Fails space locale err := by
  cases hlocate : space.locate locale p.fullPath with
  | error missing => exact .inr ⟨_, .unbound (Namespace.lost_of_locate hlocate)⟩
  | ok symbol =>
      have hsymbol : space.resolve locale p.fullPath = some symbol := by
        rw [← Namespace.toOption_locate, hlocate]
        rfl
      by_cases hvalid : p.SegmentsValid
      · by_cases h : p.Suits symbol
        · exact .inl ⟨symbol, hsymbol, hvalid, h⟩
        · cases symbol with
          | «variable» template =>
              obtain ⟨arguments, harguments⟩ := Option.ne_none_iff_exists'.mp h
              exact .inr ⟨_, .notCallable hsymbol hvalid harguments⟩
          | function template => exact .inr ⟨_, .arity hsymbol hvalid h⟩
      · exact .inr ⟨_, .invalid hsymbol hvalid⟩

/-- What a placeholder is bound to: the symbol that its full path resolves to, under this
path. -/
theorem target_eq_ok_iff :
    p.target space locale = .ok (path, symbol) ↔
      space.resolve locale p.fullPath = some symbol ∧ path = ⟨p.fullPath⟩ ∧
        p.SegmentsValid ∧ p.Suits symbol := by
  constructor
  · intro h
    rcases good_or_fails space locale p with hgood | ⟨err, hfails⟩
    · obtain ⟨symbol', hsymbol, hvalid, hsuits⟩ := hgood
      rw [target_of_suits hsymbol hvalid hsuits] at h
      cases h
      exact ⟨hsymbol, rfl, hvalid, hsuits⟩
    · rw [hfails.target] at h
      cases h
  · rintro ⟨hsymbol, rfl, hvalid, hsuits⟩
    exact target_of_suits hsymbol hvalid hsuits

/-- A placeholder has a target exactly when it is good. -/
theorem exists_target_iff :
    (∃ found, p.target space locale = .ok found) ↔ p.Good space locale := by
  simp only [Prod.exists, target_eq_ok_iff]
  constructor
  · rintro ⟨-, symbol, hsymbol, -, h⟩
    exact ⟨symbol, hsymbol, h⟩
  · rintro ⟨symbol, hsymbol, h⟩
    exact ⟨_, symbol, hsymbol, rfl, h⟩

theorem Fails.not_good (h : p.Fails space locale err) : ¬ p.Good space locale := by
  intro hgood
  obtain ⟨found, hfound⟩ := exists_target_iff.mpr hgood
  rw [h.target] at hfound
  cases hfound

/-- What is reported of a placeholder that has no target. -/
theorem target_eq_error_iff :
    p.target space locale = .error err ↔ p.Fails space locale err := by
  constructor
  · intro h
    rcases good_or_fails space locale p with hgood | ⟨err', hfails⟩
    · obtain ⟨found, hfound⟩ := exists_target_iff.mpr hgood
      rw [hfound] at h
      cases h
    · have hsame := hfails.target
      rw [h] at hsame
      cases hsame
      exact hfails
  · exact Fails.target

end Placeholder

namespace Expr

/-- The call that stands for a function: with its defaults for the arguments that are left
out, when it takes those that are given. -/
theorem ofTarget_function_eq_ok_iff {path : Path} {template : FunctionTemplate Expr}
    {arguments : List Expr} {u : Expr} :
    ofTarget path arguments (.function template) = .ok u ↔
      (template.least ≤ arguments.length ∧ arguments.length ≤ template.most) ∧
        u = .call path template (arguments ++
          (template.defaults.drop (arguments.length - template.least)).map constant) := by
  rw [ofTarget, mapError_eq_ok_iff, boundCall, bind_eq_ok_iff]
  constructor
  · rintro ⟨out, hout, h⟩
    obtain ⟨harity, rfl⟩ := (template.complete_eq_ok_iff arguments out).mp hout
    cases h
    exact ⟨harity, rfl⟩
  · rintro ⟨harity, rfl⟩
    exact ⟨_, (template.complete_eq_ok_iff arguments _).mpr ⟨harity, rfl⟩, rfl⟩

end Expr

end Criteria
