import Criteria.Proofs.Lookup
import Criteria.Proofs.Substitution

/-!
# Bound trees

Binding replaces the placeholders of a tree, and those in the arguments of calls and in
set literals with them.  The defaults that a call leaves to its template are taken over
as they stand, and a default may be a set literal of any expressions, placeholders among
them.  A bound tree is therefore free of placeholders exactly when none of the defaults
that were filled in holds one.

**Results.**
* `isBound_instantiate_iff`: when plain substitution leaves no placeholder.
* `isBound_bind_iff`: when binding in a registered namespace leaves none.
* `bind_keeps_placeholder`: a tree that is bound, checked, and still holds one.
-/

namespace Criteria

open Outcome

/-- The set literals in the templates of a draft have been built. -/
def Draft.SymbolsBuilt (d : Draft) : Prop :=
  ∀ route o, d.Holds route o → o.symbol.Built

/-- The set literals in a draft have been built when those in its own templates have been,
and those in the namespaces below. -/
theorem Draft.symbolsBuilt_iff {d : Draft} :
    d.SymbolsBuilt ↔ (∀ o ∈ d.objects, o.symbol.Built) ∧ ∀ s ∈ d.spaces, s.SymbolsBuilt := by
  constructor
  · intro h
    exact ⟨fun o ho => h _ o (.object ho), fun s hs route o hr => h _ o (.deeper hs hr)⟩
  · rintro ⟨hobjects, hspaces⟩ route o hr
    cases hr with
    | object ho => exact hobjects o ho
    | deeper hs hr => exact hspaces _ hs _ o hr

theorem Symbol.built_moved_iff (q : Path) (s : Symbol) : (s.moved q).Built ↔ s.Built := by
  cases s <;> exact Iff.rfl

/-- Lookup finds built templates in a namespace whose draft has been built. -/
theorem built_of_resolve {d : Draft} {space : Namespace} (hd : d.register = .ok space)
    (hbuilt : d.SymbolsBuilt) {locale : Option String} {segments : List String}
    {symbol : Symbol} (h : space.resolve locale segments = some symbol) :
    symbol.Built := by
  obtain ⟨path, hplace⟩ := Draft.place_of_register hd
  obtain ⟨route, o, hr, -, rfl⟩ := (resolve_eq_some_iff d.covers_locales hplace).mp h
  exact (Symbol.built_moved_iff _ _).mpr (hbuilt route o hr)

/-- The defaults that a placeholder leaves to its function hold no placeholder. -/
def Placeholder.FillsBound (space : Namespace) (locale : Option String)
    (p : Placeholder Expr) : Prop :=
  ∀ path template, p.target space locale = .ok (path, .function template) →
    ∀ c ∈ template.defaults.drop (p.argumentList.length - template.least),
      (Expr.constant c).isBound = true

namespace Expr

section Substitution

variable {space : Namespace} {locale : Option String}

/-- Collecting loses only trees that are equal to one that is kept, which hold
placeholders only if that one does. -/
theorem isBound_collect_iff {us kept : List Expr} (hbuilt : ∀ u ∈ us, u.Built)
    (h : Distinct.collect isSet us = .ok kept) :
    (∀ k ∈ kept, k.isBound = true) ↔ ∀ u ∈ us, u.isBound = true := by
  have hsubset := (Distinct.collect_sublist isSet h).subset
  constructor
  · intro hkept u hu
    obtain ⟨k, hk, rfl | hku⟩ := Distinct.covered_of_collect h u hu
    · exact hkept k hk
    · rw [← isBound_of_same (hbuilt k (hsubset hk)) (hbuilt u hu) hku]
      exact hkept k hk
  · intro hall k hk
    exact hall k (hsubset hk)

theorem isBound_of_forall₂_iff {es us : List Expr}
    (hall : List.Forall₂ (fun e u => e.instantiate space locale = .ok u) es us)
    (h : ∀ e ∈ es, ∀ u, e.instantiate space locale = .ok u →
      (u.isBound = true ↔ ∀ p ∈ e.placeholders, p.FillsBound space locale)) :
    (∀ u ∈ us, u.isBound = true) ↔
      ∀ p ∈ placeholdersAll es, p.FillsBound space locale := by
  induction hall with
  | nil => simp [placeholdersAll]
  | @cons e u es us hu _ ih =>
      have hrest := ih fun x hx => h x (List.mem_cons_of_mem e hx)
      rw [List.forall_mem_cons, h e List.mem_cons_self u hu, hrest, placeholdersAll,
        List.forall_mem_append]

/-- Plain substitution leaves no placeholder exactly when none of the placeholders that
it replaces leaves a default with one to its function. -/
theorem isBound_instantiate_iff
    (hspace : ∀ segments symbol, space.resolve locale segments = some symbol →
      symbol.Built)
    {e u : Expr} (he : e.Built) (h : e.instantiate space locale = .ok u) :
    u.isBound = true ↔ ∀ p ∈ e.placeholders, p.FillsBound space locale := by
  induction he generalizing u with
  | @node e hhere hparts ih =>
      cases rebuilt_of_instantiate h with
      | string s => simp [isBound, placeholders]
      | number d => simp [isBound, placeholders]
      | @set members us kept hall hkept =>
          have hbuilt : ∀ u ∈ us, u.Built :=
            built_of_forall₂ hall fun e he u hu => built_instantiate hspace (hparts e he) hu
          rw [isBound, isBoundAll_iff_forall, isBound_collect_iff hbuilt hkept,
            placeholders]
          exact isBound_of_forall₂_iff hall fun e he u hu => ih e he hu
      | name htarget =>
          simp only [isBound, placeholders, List.mem_singleton, forall_eq, true_iff]
          intro path template hfunction
          rw [htarget] at hfunction
          cases hfunction
      | @request p path template us htarget hall =>
          have hfills : p.FillsBound space locale ↔
              ∀ c ∈ template.defaults.drop (p.argumentList.length - template.least),
                (constant c).isBound = true := by
            constructor
            · intro hp
              exact hp path template htarget
            · intro hdefaults path' template' hfunction
              rw [htarget] at hfunction
              cases hfunction
              exact hdefaults
          have harguments : (∀ u ∈ us, u.isBound = true) ↔
              ∀ q ∈ placeholdersAll p.argumentList, q.FillsBound space locale :=
            isBound_of_forall₂_iff hall fun e he u hu => ih e he hu
          rw [isBound, isBoundAll_iff_forall, List.forall_mem_append, harguments,
            List.forall_mem_map, ← hfills, placeholders_placeholder,
            List.forall_mem_cons, and_comm]
      | «variable» path template => simp [isBound, placeholders]
      | call path template hall =>
          rw [isBound, isBoundAll_iff_forall, placeholders]
          exact isBound_of_forall₂_iff hall fun e he u hu => ih e (argument_mem_parts he) hu
      | not hu =>
          rw [isBound, placeholders]
          exact ih _ (operand_mem_parts _) hu
      | binary op hl hr =>
          rw [isBound, Bool.and_eq_true, ih _ (left_mem_parts op _ _) hl,
            ih _ (right_mem_parts op _ _) hr, placeholders, List.forall_mem_append]

end Substitution

/-- A tree that has been bound in a registered namespace is free of placeholders exactly
when each placeholder that was replaced leaves only defaults without placeholders to its
function. -/
theorem isBound_bind_iff {d : Draft} {space : Namespace} (hd : d.register = .ok space)
    (hbuilt : d.SymbolsBuilt) {locale : Option String} {e u : Expr} (he : e.Built)
    (h : e.bind space locale = .ok u) :
    u.isBound = true ↔ ∀ p ∈ e.placeholders, p.FillsBound space locale := by
  rw [bind, bind_eq_ok_iff, replacePlaceholders_eq_instantiate he] at h
  obtain ⟨bound, hbound, h⟩ := h
  obtain ⟨⟨⟩, -, h⟩ := bind_eq_ok_iff.mp h
  cases h
  exact isBound_instantiate_iff (fun _ _ hsymbol => built_of_resolve hd hbuilt hsymbol)
    he hbound

theorem isBound_bind_iff_round :
    let digits : Parameter × Constant Expr := (⟨"digits", some .number⟩, .number (.ofInt 2))
    let round : FunctionTemplate Expr :=
      ⟨⟨["round"]⟩, [⟨"value", some .number⟩], [digits], some .number⟩
    let d : Draft := Draft.root.bind (Object.ofSymbol (.function round))
    let e : Expr := .placeholder ⟨[], ⟨["round"]⟩, some [.number (.ofInt 7)]⟩
    ∃ space u, d.register = .ok space ∧ e.bind space none = .ok u ∧
      (u.isBound = true ↔ ∀ p ∈ e.placeholders, p.FillsBound space none) ∧
        u.isBound = true := by
  intro digits round d e
  have hbuilt : d.SymbolsBuilt := by
    intro route o hr
    cases hr with
    | object ho =>
        rw [List.mem_singleton.mp ho]
        intro c hc
        rw [List.mem_singleton.mp hc]
        exact built_number (.ofInt 2)
    | deeper hs _ => cases hs
  have he : e.Built :=
    Built.node trivial fun p hp => by
      rw [List.mem_singleton.mp hp]
      exact built_number (.ofInt 7)
  have hbind : ∃ space u, d.register = .ok space ∧ e.bind space none = .ok u ∧
      u.isBound = true := by
    simp only [d, e, round, digits]
    exact ⟨_, _, rfl, rfl, rfl⟩
  obtain ⟨space, u, hspace, hu, hbound⟩ := hbind
  exact ⟨space, u, hspace, hu, isBound_bind_iff hspace hbuilt he hu, hbound⟩

/-- The default of a parameter is a set of one placeholder, which no step of binding
looks at. -/
theorem bind_keeps_placeholder :
    let tags : Parameter × Constant Expr :=
      (⟨"tags", some .set⟩, .set [.placeholder ⟨[], ⟨["x"]⟩, none⟩])
    let tagged : FunctionTemplate Expr := ⟨⟨["tagged"]⟩, [], [tags], none⟩
    let d : Draft := Draft.root.bind (Object.ofSymbol (.function tagged))
    let e : Expr := .placeholder ⟨[], ⟨["tagged"]⟩, some []⟩
    ∃ space u, d.register = .ok space ∧ e.bind space none = .ok u ∧
      u.isBound = false := by
  intro tags tagged d e
  simp only [d, e, tagged, tags]
  exact ⟨_, _, rfl, rfl, rfl⟩

end Expr
end Criteria
