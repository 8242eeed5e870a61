import Criteria.Proofs.Acceptance
import Criteria.Proofs.Consultation
import Criteria.Proofs.DottedNames
import Criteria.Proofs.Soundness
import Criteria.Proofs.Spelling
import Criteria.Proofs.Unchanged

/-!
# Registered names as they are written

An object is written by the spellings of the names on the way to it, joined by dots.  The
text is cut at the dots into segments, each of which must be valid, and the segments are
looked up.  Registration asks for valid segments only of the global names, and not of the
aliases.  An alias that is empty, or that holds a dot or a blank, is taken into the table of
its locale, where it hides the global name, but no text is cut into it.  So an object can be
written in a locale exactly when the aliases on the way to it are valid segments.

A function is written with arguments.  They must be arguments that it takes, and its
defaults must not hold anything that would break a rule of its own.

**Results.**
* `checkArguments_filled_iff`: the defaults of a sound template pass the check, so it depends
  on the given arguments.
* `exists_bind_placeholder_iff`: a placeholder is bound to what its path leads to.
* `validSegment_spelling_iff`: a spelling on a route is valid exactly when its alias is.
* `written_binds_iff`: which objects can be written and bound in a locale.
-/

namespace Criteria

open Outcome

section Arguments

/-- A constant that holds only texts and numbers. -/
def Constant.Plain : Constant Expr → Prop
  | .set members => ∀ m ∈ members, (∃ s, m = Expr.string s) ∨ ∃ d, m = Expr.number d
  | .string _ => True
  | .number _ => True

theorem Constant.Plain.check {c : Constant Expr} (h : c.Plain) :
    (Expr.constant c).check = .ok () := by
  cases c with
  | string s => rfl
  | number d => rfl
  | set members =>
      refine Evaluation.check_eq_ok_iff.mpr ⟨?_, rfl⟩
      intro m hm
      rcases h m hm with ⟨s, rfl⟩ | ⟨d, rfl⟩ <;> rfl

/-- The kind that is known of an argument is the one that its parameter declares. -/
def Parameter.Takes (p : Parameter) (e : Expr) : Prop :=
  ∀ expected found, p.kind = some expected → e.staticKind = some found → expected = found

theorem checkArguments_eq_ok_iff {function : String} {ps : List Parameter}
    {es : List Expr} :
    Expr.checkArguments function ps es = .ok () ↔ ∀ x ∈ ps.zip es, x.1.Takes x.2 := by
  induction ps generalizing es with
  | nil => simp [Expr.checkArguments]
  | cons p ps ih =>
      cases es with
      | nil => simp [Expr.checkArguments]
      | cons e es =>
          rw [Evaluation.checkArguments_cons_eq_ok_iff, ih, List.zip_cons_cons,
            List.forall_mem_cons]
          rfl

theorem zip_append_right {α β : Type} (xs : List α) (ys ys' : List β) :
    xs.zip (ys ++ ys') = xs.zip ys ++ (xs.drop ys.length).zip ys' := by
  induction ys generalizing xs with
  | nil => simp
  | cons y ys ih => cases xs <;> simp [ih]

namespace FunctionTemplate

/-- Arguments with which a function can be written: as many as it takes, bound, of the
declared kinds and without a violation of a rule; and the defaults that stand for those left
out hold only texts and numbers. -/
structure Takes (t : FunctionTemplate Expr) (arguments : List Expr) : Prop where
  arity : t.least ≤ arguments.length ∧ arguments.length ≤ t.most
  bound : ∀ e ∈ arguments, e.isBound = true
  checked : ∀ e ∈ arguments, e.check = .ok ()
  kinds : ∀ x ∈ t.parameters.zip arguments, x.1.Takes x.2
  plain : ∀ c ∈ t.defaults, c.Plain

variable {t : FunctionTemplate Expr} {arguments : List Expr}

/-- The parameters after the first ones are those that the defaults belong to. -/
theorem drop_parameters {k : Nat} (h : t.least ≤ k) :
    t.parameters.drop k = (t.optional.drop (k - t.least)).map (·.1) := by
  rw [parameters, List.drop_append, List.drop_of_length_le h, List.nil_append,
    List.map_drop, least]

/-- The defaults of a sound template have the kinds of the parameters that they stand for. -/
theorem takes_defaults (hsound : t.Sound) {k : Nat} (h : t.least ≤ k) :
    ∀ x ∈ (t.parameters.drop k).zip ((t.defaults.drop (k - t.least)).map Expr.constant),
      x.1.Takes x.2 := by
  rw [drop_parameters h, defaults, ← List.map_drop, List.map_map]
  intro x hx
  -- What is left of both lists comes from the same optional parameters.
  obtain ⟨y, hy, rfl⟩ : ∃ y ∈ t.optional, x = (y.1, Expr.constant y.2) := by
    rw [List.zip_map'] at hx
    obtain ⟨y, hy, rfl⟩ := List.mem_map.mp hx
    exact ⟨y, List.mem_of_mem_drop hy, rfl⟩
  intro expected found hexpected hfound
  cases hfound
  exact (hsound.defaults_fit y hy expected hexpected).symm

/-- Of arguments followed by the defaults of a sound template only the given ones can be of
a wrong kind. -/
theorem checkArguments_filled_iff (hsound : t.Sound) (h : t.least ≤ arguments.length)
    (function : String) :
    Expr.checkArguments function t.parameters (arguments ++
      (t.defaults.drop (arguments.length - t.least)).map Expr.constant) = .ok () ↔
        ∀ x ∈ t.parameters.zip arguments, x.1.Takes x.2 := by
  rw [checkArguments_eq_ok_iff, zip_append_right, List.forall_mem_append]
  exact and_iff_left (takes_defaults hsound h)

/-- Arguments that a function takes and the defaults of a sound template have the declared
kinds. -/
theorem checkArguments_complete (hsound : t.Sound) (h : t.Takes arguments)
    (function : String) :
    Expr.checkArguments function t.parameters (arguments ++
      (t.defaults.drop (arguments.length - t.least)).map Expr.constant) = .ok () :=
  (checkArguments_filled_iff hsound h.arity.1 function).mpr h.kinds

/-- A call with arguments that the function takes, completed by its defaults, passes the
check. -/
theorem check_call_complete (hsound : t.Sound) (h : t.Takes arguments) (path : Path) :
    (Expr.call path t (arguments ++
      (t.defaults.drop (arguments.length - t.least)).map Expr.constant)).check =
        .ok () := by
  refine Evaluation.check_eq_ok_iff.mpr ⟨?_, checkArguments_complete hsound h _⟩
  refine List.forall_mem_append.mpr ⟨h.checked, List.forall_mem_map.mpr ?_⟩
  intro c hc
  exact (h.plain c (List.mem_of_mem_drop hc)).check

end FunctionTemplate

end Arguments

namespace Symbol

/-- The arguments that a symbol is written with; a variable is written without. -/
def given (arguments : List Expr) : Symbol → Option (List Expr)
  | .variable _ => none
  | .function _ => some arguments

/-- A symbol can be written with these arguments; a variable leaves them out. -/
def Takes (arguments : List Expr) : Symbol → Prop
  | .variable _ => True
  | .function template => template.Takes arguments

/-- The placeholder that a text writes for a symbol. -/
def write (text : String) (arguments : List Expr) :
    Symbol → Except ConstructionError Expr
  | .variable _ => Expr.ofName text
  | .function _ => Expr.ofCall text arguments

variable {text : String} {arguments : List Expr} {symbol : Symbol} {e : Expr}

theorem write_eq_ok_iff :
    symbol.write text arguments = .ok e ↔
      ∃ path, Path.parse text = .ok path ∧
        e = .placeholder ⟨[], path, symbol.given arguments⟩ := by
  cases symbol with
  | «variable» template =>
      rw [write, Expr.ofName, bind_eq_ok_iff]
      simp [pure, Except.pure, given, eq_comm]
  | function template =>
      rw [write, Expr.ofCall, bind_eq_ok_iff]
      simp [pure, Except.pure, given, eq_comm]

theorem given_moved (q : Path) (arguments : List Expr) (s : Symbol) :
    (s.moved q).given arguments = s.given arguments := by
  cases s <;> rfl

theorem Takes.moved (h : symbol.Takes arguments) (q : Path) :
    (symbol.moved q).Takes arguments := by
  cases symbol with
  | «variable» template => trivial
  | function template => exact ⟨h.arity, h.bound, h.checked, h.kinds, h.plain⟩

theorem Sound.moved (h : symbol.Sound) (q : Path) : (symbol.moved q).Sound := by
  cases symbol with
  | «variable» template => trivial
  | function template => exact ⟨h.names_nodup, h.defaults_fit⟩

theorem Takes.bound (h : symbol.Takes arguments) (scope : List String) (name : Path) :
    ∀ e ∈ (Placeholder.mk scope name (symbol.given arguments)).argumentList,
      e.isBound = true := by
  cases symbol with
  | «variable» template => exact fun _ he => absurd he List.not_mem_nil
  | function template => exact FunctionTemplate.Takes.bound h

theorem Takes.suits (h : symbol.Takes arguments) (scope : List String) (name : Path) :
    (Placeholder.mk scope name (symbol.given arguments)).Suits symbol := by
  cases symbol with
  | «variable» template => rfl
  | function template => exact FunctionTemplate.Takes.arity h

end Symbol

namespace Expr

variable {space : Namespace} {locale : Option String} {e u : Expr} {path : Path}
  {symbol : Symbol} {arguments : List Expr}

section Bind

theorem symbol?_of_ofTarget (h : ofTarget path arguments symbol = .ok u) :
    u.symbol? = some symbol := by
  cases symbol with
  | «variable» template =>
      cases h
      rfl
  | function template =>
      obtain ⟨-, rfl⟩ := ofTarget_function_eq_ok_iff.mp h
      rfl

/-- A symbol takes the place of a placeholder when it takes its arguments, and the tree that
comes of it passes the check. -/
theorem exists_checked_ofTarget (hsound : symbol.Sound) (h : symbol.Takes arguments)
    (path : Path) :
    ∃ u, ofTarget path ((symbol.given arguments).getD []) symbol = .ok u ∧
      u.check = .ok () := by
  cases symbol with
  | «variable» template => exact ⟨_, rfl, rfl⟩
  | function template =>
      exact ⟨_, ofTarget_function_eq_ok_iff.mpr ⟨FunctionTemplate.Takes.arity h, rfl⟩,
        FunctionTemplate.check_call_complete hsound h path⟩

/-- A placeholder whose arguments are bound is replaced by the symbol that it is meant for,
and the tree is checked. -/
theorem bind_placeholder_eq_ok_iff {p : Placeholder Expr}
    (hbound : ∀ e ∈ p.argumentList, e.isBound = true) :
    (placeholder p).bind space locale = .ok u ↔
      ∃ path symbol, p.target space locale = .ok (path, symbol) ∧
        ofTarget path p.argumentList symbol = .ok u ∧ u.check = .ok () := by
  have hreplace : (placeholder p).replacePlaceholders space locale = .ok u ↔
      ∃ path symbol, p.target space locale = .ok (path, symbol) ∧
        ofTarget path p.argumentList symbol = .ok u := by
    obtain ⟨scope, name, _ | arguments⟩ := p
    · rw [replacePlaceholders, substitute]
      simp [bind_eq_ok_iff, pure, Except.pure, Placeholder.argumentList]
    · have harguments : substituteAll space locale arguments = .ok none :=
        substituteAll_of_isBound hbound
      rw [replacePlaceholders, substitute, harguments]
      simp [bind_eq_ok_iff, pure, Except.pure, Placeholder.argumentList]
  rw [bind, bind_eq_ok_iff]
  simp only [bind_eq_ok_iff, mapError_eq_ok_iff, pure, Except.pure, Except.ok.injEq]
  constructor
  · rintro ⟨bound, hbound, ⟨⟩, hcheck, rfl⟩
    obtain ⟨path, symbol, htarget, hu⟩ := hreplace.mp hbound
    exact ⟨path, symbol, htarget, hu, hcheck⟩
  · rintro ⟨path, symbol, htarget, hu, hcheck⟩
    exact ⟨u, hreplace.mpr ⟨path, symbol, htarget, hu⟩, (), hcheck, rfl⟩

/-- A name written for a symbol, with arguments that it takes, is bound to the symbol exactly
when its segments are valid and lead to the symbol. -/
theorem exists_bind_placeholder_iff (hsound : symbol.Sound) (h : symbol.Takes arguments) :
    (∃ u, (placeholder ⟨[], path, symbol.given arguments⟩).bind space locale = .ok u ∧
      u.symbol? = some symbol) ↔
        space.resolve locale path.segments = some symbol ∧
          ∀ s ∈ path.segments, Path.validSegment s = true := by
  simp only [bind_placeholder_eq_ok_iff (h.bound [] path), Placeholder.target_eq_ok_iff]
  constructor
  · rintro ⟨u, ⟨q, found, ⟨hfound, -, hvalid, -⟩, hu, -⟩, hsymbol⟩
    rw [symbol?_of_ofTarget hu] at hsymbol
    cases hsymbol
    exact ⟨hfound, hvalid⟩
  · rintro ⟨hfound, hvalid⟩
    obtain ⟨u, hu, hcheck⟩ := exists_checked_ofTarget hsound h path
    exact ⟨u, ⟨path, symbol, ⟨hfound, rfl, hvalid, h.suits _ _⟩, hu, hcheck⟩,
      symbol?_of_ofTarget hu⟩

end Bind

end Expr

namespace Draft

variable {d : Draft} {space : Namespace} {locale : Option String} {route : List Names}
  {o : Object}

/-- On the way to an object of a registered draft all global names are valid, and its
template can be registered. -/
theorem Holds.registered {root : Draft}
    (hclear : ∀ level, d.HasLevel level → root.Clear level) (hr : d.Holds route o) :
    (∀ n ∈ route, Path.validSegment n.global = true) ∧ o.symbol.Sound := by
  induction hr with
  | @object d o ho =>
      have hlevel := hclear d .here
      refine ⟨List.forall_mem_singleton.mpr ?_, hlevel.symbols o ho⟩
      exact hlevel.objects.valid o.names (List.mem_map_of_mem ho)
  | @deeper d s route o hs hr ih =>
      obtain ⟨hroute, hsound⟩ := ih fun level hl => hclear level (.deeper hs hl)
      refine ⟨List.forall_mem_cons.mpr ⟨?_, hroute⟩, hsound⟩
      exact (hclear d .here).spaces.valid s.names (List.mem_map_of_mem hs)

/-- The spelling of a valid global name is valid in a locale exactly when the alias is that
it has there, if it has one. -/
theorem validSegment_spelling_iff {n : Names} (h : Path.validSegment n.global = true) :
    Path.validSegment (n.spelling locale) = true ↔
      ∀ name ∈ locale.bind n.alias?, Path.validSegment name = true := by
  rw [Names.spelling]
  cases locale.bind n.alias? with
  | none => simp [h]
  | some name => simp

/-- An object of a registered namespace can be written by the spellings of a locale, with
arguments that it takes, and the name is bound to its template there, exactly when every
alias on the way to the object in that locale is a valid segment. -/
theorem written_binds_iff (hd : d.register = .ok space) (locale : Option String)
    (hr : d.Holds route o) {arguments : List Expr} (h : o.symbol.Takes arguments) :
    (∃ e u, o.symbol.write (Path.joinDots (route.map (·.spelling locale))) arguments = .ok e ∧
      e.bind space locale = .ok u ∧ u.symbol? = some (space.symbolAt route o)) ↔
        ∀ n ∈ route, ∀ name ∈ locale.bind n.alias?, Path.validSegment name = true := by
  obtain ⟨hglobal, hsound⟩ := hr.registered fun _ => clear_of_register hd
  obtain ⟨path, hplace⟩ := place_of_register hd
  have hresolve {segments : List String} :
      space.resolve locale segments = some (space.symbolAt route o) ↔
        d.locales.Spelled locale segments route :=
    resolve_eq_symbolAt_iff d.covers_locales hplace hr
  have hbind (name : Path) :
      (∃ u, (Expr.placeholder ⟨[], name, o.symbol.given arguments⟩).bind space locale =
        .ok u ∧ u.symbol? = some (space.symbolAt route o)) ↔
          d.locales.Spelled locale name.segments route ∧
            ∀ s ∈ name.segments, Path.validSegment s = true := by
    rw [← hresolve, ← Symbol.given_moved ⟨space.path ++ route.map (·.global)⟩]
    exact Expr.exists_bind_placeholder_iff (hsound.moved _) (h.moved _)
  have hroute : (∀ n ∈ route, ∀ name ∈ locale.bind n.alias?, Path.validSegment name = true) ↔
      ∀ s ∈ route.map (·.spelling locale), Path.validSegment s = true := by
    rw [List.forall_mem_map]
    exact forall₂_congr fun n hn => (validSegment_spelling_iff (hglobal n hn)).symm
  rw [hroute]
  constructor
  · rintro ⟨e, u, he, hu, hsymbol⟩
    obtain ⟨name, hname, rfl⟩ := Symbol.write_eq_ok_iff.mp he
    obtain ⟨hvalid, htext⟩ := Path.parse_eq_ok_iff.mp hname
    obtain ⟨hspelled, -⟩ := (hbind name).mp ⟨u, hu, hsymbol⟩
    -- The text is cut into as many segments as the route has names, hence at no other dots.
    have hlength : name.segments.length = (route.map (·.spelling locale)).length := by
      rw [List.length_map]
      exact hspelled.length_eq
    rw [← Path.joinDots_inj_of_length hvalid.1 hvalid.dots hlength htext]
    exact hvalid.2
  · intro hvalid
    have hne : route.map (·.spelling locale) ≠ [] := by
      intro hnil
      rw [List.map_eq_nil_iff.mp hnil] at hr
      exact not_holds_nil hr
    obtain ⟨u, hu, hsymbol⟩ := (hbind ⟨route.map (·.spelling locale)⟩).mpr
      ⟨Namespace.spelled_spellings_locales d locale route, hvalid⟩
    exact ⟨_, u, Symbol.write_eq_ok_iff.mpr ⟨_, Path.parse_render ⟨hne, hvalid⟩, rfl⟩, hu,
      hsymbol⟩

/-- A function in a namespace, both with an alias, is called with one argument and leaves
the other to its default. -/
theorem written_binds_iff_arrondir :
    let digits : Parameter × Constant Expr :=
      (⟨"digits", some .number⟩, .number (.ofInt 2))
    let template : FunctionTemplate Expr :=
      ⟨⟨["round"]⟩, [⟨"value", some .number⟩], [digits], some .number⟩
    let round : Object := (Object.ofSymbol (.function template)).withAlias "fr" "arrondir"
    let numbers : Draft := ((Draft.named "numbers").withAlias "fr" "nombres").bind round
    let d : Draft := Draft.root.nest numbers
    let arguments : List Expr := [.number (.ofInt 7)]
    ∃ space e u, d.register = .ok space ∧ d.Holds [numbers.names, round.names] round ∧
      round.symbol.Takes arguments ∧
      round.symbol.write "nombres.arrondir" arguments = .ok e ∧
      e.bind space (some "fr") = .ok u ∧
      u.symbol? = some (.function { template with qualifiedName := ⟨["numbers", "round"]⟩ }) := by
  intro digits template round numbers d arguments
  have hr : d.Holds [numbers.names, round.names] round :=
    .deeper (List.mem_singleton_self numbers) (.object (List.mem_singleton_self round))
  have htakes : round.symbol.Takes arguments := by
    refine ⟨by decide, ?_, ?_, ?_, ?_⟩
    · exact List.forall_mem_singleton.mpr rfl
    · exact List.forall_mem_singleton.mpr rfl
    · refine List.forall_mem_singleton.mpr ?_
      rintro expected found ⟨⟩ ⟨⟩
      rfl
    · exact List.forall_mem_singleton.mpr trivial
  have hregister : ∃ space, d.register = .ok space ∧ space.path = [] := by
    simp only [d, numbers, round, template, digits]
    exact ⟨_, rfl, rfl⟩
  obtain ⟨space, hspace, hpath⟩ := hregister
  have hvalid : ∀ n ∈ [numbers.names, round.names], ∀ name ∈ (some "fr").bind n.alias?,
      Path.validSegment name = true := by
    simp only [List.forall_mem_cons]
    refine ⟨?_, ?_, by simp⟩ <;> rintro name ⟨⟩ <;> decide
  obtain ⟨e, u, he, hu, hsymbol⟩ :=
    (written_binds_iff hspace (some "fr") hr htakes).mpr hvalid
  refine ⟨space, e, u, hspace, hr, htakes, he, hu, ?_⟩
  rw [hsymbol, Namespace.symbolAt, hpath]
  rfl

/-- An alias with blanks is registered, but cannot be written; and the global name, which it
hides in its locale, leads nowhere. -/
theorem alias_with_blanks_unwritten :
    let birthday : Object :=
      (Object.ofSymbol (.variable ⟨⟨["birthday"]⟩, none⟩)).withAlias "en" "date of birth"
    let d : Draft := Draft.root.bind birthday
    ∃ space, d.register = .ok space ∧ d.Holds [birthday.names] birthday ∧
      Path.joinDots ([birthday.names].map (·.spelling (some "en"))) = "date of birth" ∧
      birthday.symbol.write "date of birth" [] = .error (.invalidPath "date of birth") ∧
      space.resolve (some "en") ["birthday"] = none := by
  intro birthday d
  have hregister : ∃ space, d.register = .ok space ∧
      space.resolve (some "en") ["birthday"] = none := by
    simp only [d, birthday]
    exact ⟨_, rfl, rfl⟩
  obtain ⟨space, hspace, hhidden⟩ := hregister
  exact ⟨space, hspace, .object (List.mem_singleton_self birthday), by decide, rfl,
    hhidden⟩

end Draft

end Criteria
