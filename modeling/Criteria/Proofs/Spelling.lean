import Criteria.Proofs.Lookup
import Mathlib.Data.Set.Function

/-!
# Paths in the spelling of a locale

A path of global names leads down from level to level to an object.  In a locale each of
its segments may be spelled otherwise, and the path of these spellings leads to the same
object in that locale.

**Results.**
* `respell_route`: the respelled path writes out the route in the spelling of the locale.
* `resolve_respell`: it leads, in the locale, to the symbol that the path leads to without
  one.
* `respell_injOn`: paths that lead somewhere have different respellings.
-/

namespace Criteria

theorem Locales.spelled_none_iff {l : Locales} {segments : List String}
    {route : List Names} :
    l.Spelled none segments route ↔ segments = route.map (·.global) := by
  rw [Locales.Spelled, ← List.forall₂_eq_eq_eq, List.forall₂_map_right_iff]
  exact Iff.rfl

namespace Namespace

/-- A path of global names in the spelling of a locale: every segment is spelled as the
level or the object that it names.  From a segment that names nothing the path is left as
it is. -/
def respell (n : Namespace) (locale : Option String) : List String → List String
  | [] => []
  | [name] =>
      match n.object? none name with
      | some o => [o.names.spelling locale]
      | none => [name]
  | segment :: rest =>
      match n.space? none segment with
      | some s => s.names.spelling locale :: s.respell locale rest
      | none => segment :: rest

section Segments

variable (n : Namespace) (locale : Option String)

theorem respell_single (name : String) :
    n.respell locale [name] =
      match n.object? none name with
      | some o => [o.names.spelling locale]
      | none => [name] := by
  rfl

theorem respell_cons_cons (segment next : String) (rest : List String) :
    n.respell locale (segment :: next :: rest) =
      match n.space? none segment with
      | some s => s.names.spelling locale :: s.respell locale (next :: rest)
      | none => segment :: next :: rest := by
  rfl

/-- A path keeps its number of segments. -/
theorem length_respell (segments : List String) :
    (n.respell locale segments).length = segments.length := by
  induction segments generalizing n with
  | nil => rfl
  | cons segment rest ih =>
      cases rest with
      | nil =>
          rw [respell_single]
          cases n.object? none segment <;> rfl
      | cons next rest =>
          rw [respell_cons_cons]
          cases n.space? none segment with
          | none => rfl
          | some s =>
              rw [List.length_cons, ih s]
              rfl

end Segments

variable {locale : Option String}

/-- The path of the global names on a route becomes that of its spellings. -/
theorem respell_route {l : Locales} {d : Draft} {path : List String} {n : Namespace}
    (hc : l.Covers d) (h : d.place l path = .ok n) {route : List Names} {o : Object}
    (hr : d.Holds route o) :
    n.respell locale (route.map (·.global)) = route.map (·.spelling locale) := by
  induction hr generalizing path n with
  | @object d o ho =>
      have hobject : n.object? none o.names.global = some (o.inPlace path) :=
        (object?_eq_some_iff hc (placed_of_place h)).mpr ⟨o, ho, rfl, rfl⟩
      rw [List.map_singleton, respell_single, hobject]
      rfl
  | @deeper d s route o hs hr ih =>
      obtain ⟨m, hm⟩ := exists_place_of_mem_spaces (placed_of_place h) hs
      have hspace : n.space? none s.names.global = some m :=
        (space?_eq_some_iff hc (placed_of_place h)).mpr ⟨s, hs, hm, rfl⟩
      have hrest := ih (hc.of_mem_spaces hs) hm
      cases route with
      | nil => exact absurd hr Draft.not_holds_nil
      | cons next route =>
          rw [List.map_cons, List.map_cons, respell_cons_cons, hspace]
          show m.names.spelling locale :: _ = _
          rw [names_of_place hm, ← List.map_cons, hrest]
          rfl

section Registered

variable {d : Draft} {n : Namespace} {segments : List String} {symbol : Symbol}

/-- Without a locale a path leads to a symbol along the route of its own names. -/
theorem exists_route_of_resolve (hd : d.register = .ok n) (locale : Option String)
    (h : n.resolve none segments = some symbol) :
    ∃ route o, d.Holds route o ∧ segments = route.map (·.global) ∧
      n.respell locale segments = route.map (·.spelling locale) ∧
        n.symbolAt route o = symbol := by
  obtain ⟨path, hplace⟩ := Draft.place_of_register hd
  obtain ⟨route, o, hr, hs, hsymbol⟩ :=
    (resolve_eq_some_iff d.covers_locales hplace).mp h
  obtain rfl := Locales.spelled_none_iff.mp hs
  exact ⟨route, o, hr, rfl, respell_route d.covers_locales hplace hr, hsymbol⟩

theorem spelled_spellings_locales (d : Draft) (locale : Option String)
    (route : List Names) :
    d.locales.Spelled locale (route.map (·.spelling locale)) route :=
  (d.spelled_locales_iff _ _ _).mpr (d.spelled_spellings locale route)

/-- The respelled path leads, in the locale, to the symbol that the path leads to without
one. -/
theorem resolve_respell (hd : d.register = .ok n)
    (h : n.resolve none segments = some symbol) :
    n.resolve locale (n.respell locale segments) = some symbol := by
  obtain ⟨path, hplace⟩ := Draft.place_of_register hd
  obtain ⟨route, o, hr, -, hrespell, rfl⟩ := exists_route_of_resolve hd locale h
  rw [hrespell, resolve_eq_symbolAt_iff d.covers_locales hplace hr]
  exact spelled_spellings_locales d locale route

/-- Paths that lead somewhere have different respellings. -/
theorem respell_injOn (hd : d.register = .ok n) (locale : Option String) :
    Set.InjOn (n.respell locale)
      {segments | ∃ symbol, n.resolve none segments = some symbol} := by
  obtain ⟨path, hplace⟩ := Draft.place_of_register hd
  rintro segments ⟨symbol, h⟩ segments' ⟨symbol', h'⟩ heq
  obtain ⟨route, o, hr, rfl, hrespell, -⟩ := exists_route_of_resolve hd locale h
  obtain ⟨route', o', hr', rfl, hrespell', -⟩ :=
    exists_route_of_resolve hd locale h'
  have hspelled := spelled_spellings_locales d locale route'
  rw [← hrespell', ← heq, hrespell] at hspelled
  obtain ⟨rfl, -⟩ := route_unique d.covers_locales hplace hr hr'
    (spelled_spellings_locales d locale route) hspelled
  rfl

end Registered

end Namespace

end Criteria
