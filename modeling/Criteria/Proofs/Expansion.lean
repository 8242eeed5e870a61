import Criteria.Proofs.Substitution

/-!
# Expansion

What it means to write out the placeholders of a tree, said without the search that
reports a missing segment and without the shortcut for parts that hold no placeholder.
A placeholder is replaced by what the namespace resolves its path to, under that path,
and every other node is built again from its expanded children.

**Results.**
* `expand_eq_some_iff`: plain substitution succeeds exactly where the tree expands, and
  with the same tree.
* `bind_eq_ok_iff_expand`: a tree is bound exactly when its expansion passes the checks.
-/

namespace Criteria

open Outcome

section Expand

variable (space : Namespace) (locale : Option String)

/-- The node that stands for a symbol in the place of a placeholder, given the trees for
its arguments: a variable, which takes no arguments, or a call with the defaults of the
arguments that are left out. -/
def Placeholder.standIn (p : Placeholder Expr) (path : Path) (arguments : List Expr) :
    Symbol → Option Expr
  | .variable template => if p.isCall then none else some (.variable path template)
  | .function template => (Expr.boundCall path template arguments).toOption

/-- What a placeholder is replaced by, given the trees for its arguments: the node for the
symbol that its full path resolves to, under this path. -/
def Placeholder.expansion (p : Placeholder Expr) (arguments : List Expr) : Option Expr :=
  (space.resolve locale p.fullPath).bind fun symbol =>
    if p.SegmentsValid then p.standIn ⟨p.fullPath⟩ arguments symbol else none

namespace Expr

mutual

/-- The tree with its placeholders written out. -/
def expand : Expr → Option Expr
  | .constant (.set members) => do
      let members ← expandAll members
      (ofMembers members).toOption
  | .constant (.string s) => some (.string s)
  | .constant (.number d) => some (.number d)
  | .placeholder ⟨scope, name, none⟩ =>
      Placeholder.expansion space locale ⟨scope, name, none⟩ []
  | .placeholder ⟨scope, name, some arguments⟩ => do
      let expanded ← expandAll arguments
      Placeholder.expansion space locale ⟨scope, name, some arguments⟩ expanded
  | .variable path template => some (.variable path template)
  | .call path template arguments => do
      let arguments ← expandAll arguments
      some (.call path template arguments)
  | .not operand => do
      let operand ← expand operand
      some (.not operand)
  | .binary op left right => do
      let left ← expand left
      let right ← expand right
      some (.binary op left right)

/-- The trees of a list with their placeholders written out. -/
def expandAll : List Expr → Option (List Expr)
  | [] => some []
  | e :: es => do
      let e ← expand e
      let es ← expandAll es
      some (e :: es)

end

end Expr

end Expand

namespace Expr

variable {space : Namespace} {locale : Option String}

section Placeholders

variable {p : Placeholder Expr} {arguments : List Expr} {u : Expr}

/-- A symbol has a node in the place of a placeholder exactly when it takes the arguments
of the placeholder, since replacing them does not change their number. -/
theorem standIn_eq_some_iff (hlength : arguments.length = p.argumentList.length)
    (path : Path) (symbol : Symbol) :
    p.standIn path arguments symbol = some u ↔
      p.Suits symbol ∧ ofTarget path arguments symbol = .ok u := by
  cases symbol with
  | «variable» template =>
      rw [Placeholder.Suits]
      cases h : p.arguments <;>
        simp [Placeholder.standIn, Placeholder.isCall, h, ofTarget, pure, Except.pure]
  | function template =>
      rw [Placeholder.Suits, ← hlength, Placeholder.standIn, toOption_eq_some_iff,
        ofTarget, mapError_eq_ok_iff]
      constructor
      · intro h
        exact ⟨(ofTarget_function_eq_ok_iff.mp (mapError_eq_ok_iff.mpr h)).1, h⟩
      · exact fun h => h.2

/-- A placeholder is replaced by what its target becomes. -/
theorem expansion_eq_some_iff (hlength : arguments.length = p.argumentList.length) :
    p.expansion space locale arguments = some u ↔
      ∃ path symbol, p.target space locale = .ok (path, symbol) ∧
        ofTarget path arguments symbol = .ok u := by
  simp only [Placeholder.expansion, Option.bind_eq_some_iff, Placeholder.target_eq_ok_iff]
  constructor
  · rintro ⟨symbol, hsymbol, h⟩
    split at h
    · next hvalid =>
        obtain ⟨hsuits, hu⟩ := (standIn_eq_some_iff hlength _ symbol).mp h
        exact ⟨_, symbol, ⟨hsymbol, rfl, hvalid, hsuits⟩, hu⟩
    · cases h
  · rintro ⟨-, symbol, ⟨hsymbol, rfl, hvalid, hsuits⟩, hu⟩
    refine ⟨symbol, hsymbol, ?_⟩
    rw [if_pos hvalid]
    exact (standIn_eq_some_iff hlength _ symbol).mpr ⟨hsuits, hu⟩

end Placeholders

theorem expandAll_eq_some_iff {es us : List Expr} :
    expandAll space locale es = some us ↔
      List.Forall₂ (fun e u => e.expand space locale = some u) es us := by
  induction es generalizing us with
  | nil => simp [expandAll, eq_comm]
  | cons e es ih =>
      simp only [expandAll, Option.bind_eq_bind, Option.bind_eq_some_iff, ih,
        List.forall₂_cons_left_iff, Option.some.injEq]
      constructor
      · rintro ⟨u, hu, us, hus, rfl⟩
        exact ⟨u, us, hu, hus, rfl⟩
      · rintro ⟨u, us, hu, hus, rfl⟩
        exact ⟨u, hu, us, hus, rfl⟩

theorem expandAll_iff_instantiateAll {es us : List Expr}
    (h : ∀ e ∈ es, ∀ u, e.expand space locale = some u ↔
      e.instantiate space locale = .ok u) :
    expandAll space locale es = some us ↔ instantiateAll space locale es = .ok us := by
  rw [expandAll_eq_some_iff, instantiateAll_eq_ok_iff]
  constructor
  · intro hall
    exact forall₂_imp_of_mem hall fun e he u _ => (h e he u).mp
  · intro hall
    exact forall₂_imp_of_mem hall fun e he u _ => (h e he u).mpr

/-- Plain substitution succeeds where the tree expands, and with the same tree. -/
theorem expand_eq_some_iff {e u : Expr} :
    e.expand space locale = some u ↔ e.instantiate space locale = .ok u := by
  induction e using child_induction generalizing u with
  | node e ih =>
      have hall (es : List Expr) (hes : ∀ x ∈ es, x ∈ e.children) (us : List Expr) :
          expandAll space locale es = some us ↔
            instantiateAll space locale es = .ok us :=
        expandAll_iff_instantiateAll fun x hx _ => ih x (hes x hx)
      match e with
      | .constant (.string s) => simp [expand, instantiate, pure, Except.pure]
      | .constant (.number d) => simp [expand, instantiate, pure, Except.pure]
      | .constant (.set members) =>
          simp only [expand, instantiate, Option.bind_eq_bind, Option.bind_eq_some_iff,
            bind_eq_ok_iff, toOption_eq_some_iff, mapError_eq_ok_iff,
            hall members fun _ hx => hx]
      | .placeholder ⟨scope, name, none⟩ =>
          rw [expand, instantiate, bind_eq_ok_iff, Prod.exists]
          exact expansion_eq_some_iff rfl
      | .placeholder ⟨scope, name, some arguments⟩ =>
          rw [expand, instantiate, bind_eq_ok_iff, Prod.exists]
          simp only [Option.bind_eq_bind, Option.bind_eq_some_iff, bind_eq_ok_iff,
            hall arguments fun _ hx => hx]
          constructor
          · rintro ⟨us, hus, h⟩
            have hlength := (instantiateAll_eq_ok_iff.mp hus).length_eq
            obtain ⟨path, symbol, htarget, hu⟩ :=
              (expansion_eq_some_iff hlength.symm).mp h
            exact ⟨path, symbol, htarget, us, hus, hu⟩
          · rintro ⟨path, symbol, htarget, us, hus, hu⟩
            have hlength := (instantiateAll_eq_ok_iff.mp hus).length_eq
            exact ⟨us, hus,
              (expansion_eq_some_iff hlength.symm).mpr ⟨path, symbol, htarget, hu⟩⟩
      | .variable path template => simp [expand, instantiate, pure, Except.pure]
      | .call path template arguments =>
          simp [expand, instantiate, Option.bind_eq_some_iff, bind_eq_ok_iff, pure,
            Except.pure, hall arguments fun _ hx => hx]
      | .not operand =>
          simp [expand, instantiate, Option.bind_eq_some_iff, bind_eq_ok_iff, pure,
            Except.pure, ih operand (by simp [children])]
      | .binary op left right =>
          simp [expand, instantiate, Option.bind_eq_some_iff, bind_eq_ok_iff, pure,
            Except.pure, ih left (by simp [children]), ih right (by simp [children])]

/-- A built tree is bound exactly when its expansion passes the checks, and to just this
tree. -/
theorem bind_eq_ok_iff_expand {e u : Expr} (he : e.Built) :
    e.bind space locale = .ok u ↔
      e.expand space locale = some u ∧ check u = .ok () := by
  rw [bind_eq_ok_iff_instantiate he, expand_eq_some_iff]

/-- A call is completed with its default, also beside a set literal that is built again. -/
theorem bind_eq_ok_iff_expand_round :
    let digits : Parameter × Constant Expr :=
      (⟨"digits", some .number⟩, .number (.ofInt 2))
    let round : FunctionTemplate Expr :=
      ⟨⟨["round"]⟩, [⟨"value", some .number⟩], [digits], some .number⟩
    let limit : VariableTemplate := ⟨⟨["limit"]⟩, some .number⟩
    let d : Draft := (Draft.root.bind (Object.ofSymbol (.function round))).bind
      (Object.ofSymbol (.variable limit))
    let limits : Expr := .set [.number (.ofInt 7), .placeholder ⟨[], ⟨["limit"]⟩, none⟩]
    let e : Expr := .binary .belongsTo
      (.placeholder ⟨[], ⟨["round"]⟩, some [.number (.ofInt 7)]⟩) limits
    let u : Expr := .binary .belongsTo
      (.call ⟨["round"]⟩ round [.number (.ofInt 7), .number (.ofInt 2)])
      (.set [.number (.ofInt 7), .variable ⟨["limit"]⟩ limit])
    ∃ space, d.register = .ok space ∧ e.Built ∧ e.bind space none = .ok u := by
  intro digits round limit d limits e u
  have hlimits : limits.Built := by
    refine Built.node (builtHere_set_iff.mpr ⟨limits.children, rfl⟩) ?_
    intro m hm
    rcases List.mem_pair.mp hm with rfl | rfl <;> exact built_leaf rfl
  have hcall : (Expr.placeholder ⟨[], ⟨["round"]⟩, some [.number (.ofInt 7)]⟩).Built := by
    refine Built.node trivial ?_
    intro x hx
    rw [List.mem_singleton.mp hx]
    exact built_leaf rfl
  have he : e.Built := by
    refine Built.node trivial ?_
    intro x hx
    rcases List.mem_pair.mp hx with rfl | rfl
    · exact hcall
    · exact hlimits
  have hexpand : ∃ space, d.register = .ok space ∧ e.expand space none = some u := by
    simp only [d, e, u, limits, round, limit, digits]
    exact ⟨_, rfl, rfl⟩
  obtain ⟨space, hregister, hu⟩ := hexpand
  exact ⟨space, hregister, he, (bind_eq_ok_iff_expand he).mpr ⟨hu, rfl⟩⟩

end Expr
end Criteria
