import Criteria.Proofs.Registration

/-!
# Lookup in a registered namespace

A path of spellings leads, in a registered namespace, to the object that its draft holds
at the end of a route of names which the segments spell.  In a locale in which some
level of the draft makes no difference of capitals, a segment may be written in any of
them.

**Results.**
* `Shelved.entry?_eq_some_iff`: an entry answers to a name exactly when the name spells it.
* `resolve_eq_some_iff`: a path leads to a symbol exactly when it spells a route to an
  object with that symbol.
* `route_unique`: no path spells two routes.
* `resolve_exact`: lookup in a registered namespace, in every locale.
-/

namespace Criteria

open Outcome

/-- Whether two texts are the same name in a locale. -/
def Locales.Alike (l : Locales) (locale : Option String) (a b : String) : Prop :=
  match locale with
  | some here => l.key here a = l.key here b
  | none => a = b

/-- A path writes out the names of a route, segment by segment. -/
def Locales.Spelled (l : Locales) (locale : Option String)
    (segments : List String) (route : List Names) : Prop :=
  List.Forall₂ (fun segment n => l.Alike locale segment (n.spelling locale))
    segments route

/-- Names as their table holds them: the global names are different, the table spells
them in the known locales, and no alias or folding belongs to another locale. -/
structure Shelved (l : Locales) (table : SpellingTable) (ns : List Names) : Prop where
  nodup : (ns.map (·.global)).Nodup
  spells : table.Spells l l.known ns
  known : ∀ n ∈ ns, ∀ x ∈ n.locales, x ∈ l.known
  folded : ∀ x ∈ l.folded, x ∈ l.known

section Entries

variable {α : Type} {names : α → Names} {entries : List α} {l : Locales}
  {table : SpellingTable} {locale : Option String} {name : String} {e e' : α}

theorem Shelved.eq_of_global_eq (h : Shelved l table (entries.map names))
    (he : e ∈ entries) (he' : e' ∈ entries) (hg : (names e).global = (names e').global) :
    e = e' := by
  have hnodup := h.nodup
  rw [List.map_map] at hnodup
  exact List.inj_on_of_nodup_map hnodup he he' hg

theorem Shelved.find?_eq_some_iff (h : Shelved l table (entries.map names))
    {global : String} :
    (entries.find? fun e => (names e).global = global) = some e ↔
      e ∈ entries ∧ (names e).global = global := by
  constructor
  · intro hfind
    exact ⟨List.mem_of_find?_eq_some hfind, by simpa using List.find?_some hfind⟩
  · rintro ⟨he, rfl⟩
    cases hfind : entries.find? fun x => (names x).global = (names e).global with
    | none =>
        have hnone := List.find?_eq_none.mp hfind e he
        simp at hnone
    | some found =>
        have hglobal : (names found).global = (names e).global := by
          simpa using List.find?_some hfind
        rw [h.eq_of_global_eq (List.mem_of_find?_eq_some hfind) he hglobal]

theorem globalName?_of_hasLocale {here : String} (h : table.hasLocale here = true) :
    l.globalName? table (some here) name =
      (table.lookup? here (l.key here name)).map (·.global) := by
  rw [Locales.globalName?, Option.filter_some_pos h]

theorem globalName?_of_not_hasLocale {here : String} (h : table.hasLocale here = false) :
    l.globalName? table (some here) name = some name := by
  rw [Locales.globalName?, Option.filter_some_neg (by simp [h])]

/-- A name stands for the global name of an entry exactly when it spells the entry. -/
theorem Shelved.globalName?_eq_some_iff (h : Shelved l table (entries.map names))
    (he : e ∈ entries) :
    l.globalName? table locale name = some (names e).global ↔
      l.Alike locale name ((names e).spelling locale) := by
  have hmem : names e ∈ entries.map names := List.mem_map_of_mem he
  cases locale with
  | none => simp [Locales.globalName?, Locales.Alike, Names.spelling]
  | some here =>
      by_cases hknown : here ∈ l.known
      · have hlocale : table.hasLocale here = true :=
          (h.spells.hasLocale_iff here).mpr ⟨hknown, List.ne_nil_of_mem hmem⟩
        simp only [globalName?_of_hasLocale hlocale, Option.map_eq_some_iff,
          h.spells.lookup?_iff, Locales.Alike]
        constructor
        · rintro ⟨s, ⟨-, n, hn, hkey, rfl⟩, hglobal⟩
          obtain ⟨e', he', rfl⟩ := List.mem_map.mp hn
          rw [h.eq_of_global_eq he' he hglobal] at hkey
          exact hkey.symm
        · intro hkey
          exact ⟨_, ⟨hknown, names e, hmem, hkey.symm, rfl⟩, rfl⟩
      · -- In a locale that is not known, there is no alias and capitals count.
        have hlocale : table.hasLocale here = false := by
          rw [← Bool.not_eq_true, h.spells.hasLocale_iff]
          exact fun hboth => hknown hboth.1
        have hfolded : l.isFolded here = false := by
          rw [Locales.isFolded, List.contains_eq_mem, decide_eq_false_iff_not]
          exact fun hmem => hknown (h.folded here hmem)
        have halias : (names e).alias? here = none := by
          rw [Names.alias?, List.lookup_eq_none_iff]
          intro p hp
          simp only [bne_iff_ne, ne_eq]
          rintro rfl
          exact hknown (h.known (names e) hmem p.1 (List.mem_map_of_mem hp))
        rw [globalName?_of_not_hasLocale hlocale]
        simp [Locales.Alike, Locales.key, hfolded, Names.spelling, halias]

/-- An entry answers to a name exactly when the name spells it. -/
theorem Shelved.entry?_eq_some_iff (h : Shelved l table (entries.map names)) :
    l.entry? table locale names entries name = some e ↔
      e ∈ entries ∧ l.Alike locale name ((names e).spelling locale) := by
  rw [Locales.entry?, Option.bind_eq_some_iff]
  constructor
  · rintro ⟨global, hglobal, hfind⟩
    obtain ⟨he, rfl⟩ := h.find?_eq_some_iff.mp hfind
    exact ⟨he, (h.globalName?_eq_some_iff he).mp hglobal⟩
  · rintro ⟨he, halike⟩
    exact ⟨(names e).global, (h.globalName?_eq_some_iff he).mpr halike,
      h.find?_eq_some_iff.mpr ⟨he, rfl⟩⟩

/-- No two entries are spelled by one name. -/
theorem Shelved.entry_unique (h : Shelved l table (entries.map names))
    (he : e ∈ entries) (he' : e' ∈ entries)
    (ha : l.Alike locale name ((names e).spelling locale))
    (ha' : l.Alike locale name ((names e').spelling locale)) :
    e = e' := by
  have hfound := h.entry?_eq_some_iff.mpr ⟨he, ha⟩
  have hfound' := h.entry?_eq_some_iff.mpr ⟨he', ha'⟩
  exact Option.some.inj (hfound.symm.trans hfound')

end Entries

/-- The locales of the aliases in a draft are known, and so are the folded ones. -/
structure Locales.Covers (l : Locales) (d : Draft) : Prop where
  aliases : ∀ x ∈ d.aliasLocales, x ∈ l.known
  folded : ∀ x ∈ l.folded, x ∈ l.known

namespace Draft

theorem covers_locales (d : Draft) : d.locales.Covers d where
  aliases x hx := by
    rw [locales, Locales.mem_ascending]
    exact List.mem_append_left _ hx
  folded x hx := by
    rw [locales, Locales.mem_ascending]
    exact List.mem_append_right _ hx

/-- A draft holds an object under a route: the names of the levels on the way down to
it, and last its own. -/
inductive Holds : Draft → List Names → Object → Prop
  | object {d : Draft} {o : Object} : o ∈ d.objects → Holds d [o.names] o
  | deeper {d s : Draft} {route : List Names} {o : Object} :
      s ∈ d.spaces → Holds s route o → Holds d (s.names :: route) o

section Holds

variable {d : Draft} {o : Object}

theorem not_holds_nil : ¬ d.Holds [] o := by
  intro h
  cases h

theorem holds_single_iff {n : Names} :
    d.Holds [n] o ↔ o ∈ d.objects ∧ o.names = n := by
  constructor
  · intro h
    cases h with
    | object h => exact ⟨h, rfl⟩
    | deeper _ h => exact absurd h not_holds_nil
  · rintro ⟨h, rfl⟩
    exact Holds.object h

theorem holds_cons_cons_iff {n next : Names} {route : List Names} :
    d.Holds (n :: next :: route) o ↔
      ∃ s ∈ d.spaces, s.names = n ∧ s.Holds (next :: route) o := by
  constructor
  · intro h
    cases h with
    | deeper hs h => exact ⟨_, hs, rfl, h⟩
  · rintro ⟨s, hs, rfl, h⟩
    exact Holds.deeper hs h

end Holds

end Draft

section Levels

variable {l : Locales} {d : Draft} {path : List String} {n : Namespace}
  {locale : Option String}

theorem Locales.Covers.of_mem_spaces (hc : l.Covers d) {s : Draft} (hs : s ∈ d.spaces) :
    l.Covers s where
  aliases x hx := hc.aliases x ((Draft.mem_aliasLocales x d).mpr (Or.inr ⟨s, hs, hx⟩))
  folded := hc.folded

theorem Draft.Placed.shelved_objects (h : d.Placed l path n) (hc : l.Covers d) :
    Shelved l n.objectTable (d.objects.map (·.names)) where
  nodup := by
    rw [List.map_map]
    exact h.objects_nodup
  spells := h.objects_spelled
  known := by
    rintro _ hmem x hx
    obtain ⟨o, ho, rfl⟩ := List.mem_map.mp hmem
    exact hc.aliases x ((Draft.mem_aliasLocales x d).mpr (Or.inl (Or.inr ⟨o, ho, hx⟩)))
  folded := hc.folded

theorem Draft.Placed.shelved_spaces (h : d.Placed l path n) (hc : l.Covers d) :
    Shelved l n.spaceTable (d.spaces.map (·.names)) where
  nodup := by
    rw [List.map_map]
    exact h.spaces_nodup
  spells := h.spaces_spelled
  known := by
    rintro _ hmem x hx
    obtain ⟨s, hs, rfl⟩ := List.mem_map.mp hmem
    exact (hc.of_mem_spaces hs).aliases x
      ((Draft.mem_aliasLocales x s).mpr (Or.inl (Or.inl hx)))
  folded := hc.folded

/-- The objects of a level that answer to a name are those of the draft that it
spells. -/
theorem object?_eq_some_iff (hc : l.Covers d) (h : d.Placed l path n)
    {name : String} {placed : Object} :
    n.object? locale name = some placed ↔
      ∃ o ∈ d.objects, o.inPlace path = placed ∧
        l.Alike locale name (o.names.spelling locale) := by
  have hshelved : Shelved l n.objectTable (n.objects.map (·.names)) := by
    rw [h.objects_eq, map_names_inPlace]
    exact h.shelved_objects hc
  rw [Namespace.object?, h.locales_eq, hshelved.entry?_eq_some_iff, h.objects_eq,
    List.mem_map]
  constructor
  · rintro ⟨⟨o, ho, rfl⟩, halike⟩
    exact ⟨o, ho, rfl, halike⟩
  · rintro ⟨o, ho, rfl, halike⟩
    exact ⟨⟨o, ho, rfl⟩, halike⟩

/-- The levels below that answer to a name are placed from those of the draft that it
spells. -/
theorem space?_eq_some_iff (hc : l.Covers d) (h : d.Placed l path n)
    {name : String} {m : Namespace} :
    n.space? locale name = some m ↔
      ∃ s ∈ d.spaces, s.place l (path ++ [s.names.global]) = .ok m ∧
        l.Alike locale name (s.names.spelling locale) := by
  have hshelved : Shelved l n.spaceTable (n.spaces.map (·.names)) := by
    rw [map_names_of_forall₂ h.spaces_placed]
    exact h.shelved_spaces hc
  rw [Namespace.space?, h.locales_eq, hshelved.entry?_eq_some_iff,
    mem_iff_of_forall₂ h.spaces_placed]
  constructor
  · rintro ⟨⟨s, hs, hplace⟩, halike⟩
    exact ⟨s, hs, hplace, names_of_place hplace ▸ halike⟩
  · rintro ⟨s, hs, hplace, halike⟩
    exact ⟨⟨s, hs, hplace⟩, (names_of_place hplace).symm ▸ halike⟩

theorem exists_place_of_mem_spaces (h : d.Placed l path n) {s : Draft}
    (hs : s ∈ d.spaces) : ∃ m, s.place l (path ++ [s.names.global]) = .ok m := by
  obtain ⟨i, hi, rfl⟩ := List.mem_iff_getElem.mp hs
  have hlength := h.spaces_placed.length_eq
  exact ⟨n.spaces[i], h.spaces_placed.get hi (hlength ▸ hi)⟩

end Levels

namespace Namespace

section Resolve

variable (n : Namespace) (locale : Option String)

theorem resolve_nil : n.resolve locale [] = none := by
  rfl

theorem resolve_single (name : String) :
    n.resolve locale [name] = (n.object? locale name).map (·.symbol) := by
  rfl

theorem resolve_cons_cons (segment next : String) (rest : List String) :
    n.resolve locale (segment :: next :: rest) =
      (n.space? locale segment).bind fun s => s.resolve locale (next :: rest) := by
  rw [← toOption_locate, locate_cons]
  cases n.space? locale segment with
  | none => rfl
  | some s => exact toOption_locate s locale (next :: rest)

end Resolve

/-- The symbol of an object under the qualified name that a route gives it. -/
def symbolAt (n : Namespace) (route : List Names) (o : Object) : Symbol :=
  o.symbol.moved ⟨n.path ++ route.map (·.global)⟩

end Namespace

section Routes

variable {l : Locales} {d : Draft} {path : List String} {n : Namespace}
  {locale : Option String} {segments : List String}

/-- A path leads to a symbol exactly when it spells a route to an object with that
symbol. -/
theorem resolve_eq_some_iff (hc : l.Covers d) (h : d.place l path = .ok n)
    {symbol : Symbol} :
    n.resolve locale segments = some symbol ↔
      ∃ route o, d.Holds route o ∧ l.Spelled locale segments route ∧
        n.symbolAt route o = symbol := by
  induction segments generalizing d path n with
  | nil =>
      rw [Namespace.resolve_nil]
      constructor
      · intro hnone
        cases hnone
      · rintro ⟨route, o, hr, hs, -⟩
        cases hs
        exact absurd hr Draft.not_holds_nil
  | cons segment rest ih =>
      have hp := placed_of_place h
      cases rest with
      | nil =>
          rw [Namespace.resolve_single, Option.map_eq_some_iff]
          simp only [object?_eq_some_iff hc hp]
          constructor
          · rintro ⟨-, ⟨o, ho, rfl, ha⟩, rfl⟩
            refine ⟨[o.names], o, .object ho, .cons ha .nil, ?_⟩
            rw [Namespace.symbolAt, hp.path_eq]
            rfl
          · rintro ⟨route, o, hr, hs, rfl⟩
            cases hs with
            | cons ha hrest =>
                cases hrest
                obtain ⟨ho, rfl⟩ := Draft.holds_single_iff.mp hr
                refine ⟨o.inPlace path, ⟨o, ho, rfl, ha⟩, ?_⟩
                rw [Namespace.symbolAt, hp.path_eq]
                rfl
      | cons next rest =>
          have hsymbol {s : Draft} {m : Namespace}
              (hm : s.place l (path ++ [s.names.global]) = .ok m)
              (route : List Names) (o : Object) :
              m.symbolAt route o = n.symbolAt (s.names :: route) o := by
            rw [Namespace.symbolAt, Namespace.symbolAt, (placed_of_place hm).path_eq,
              hp.path_eq, List.map_cons, List.append_assoc, List.singleton_append]
          rw [Namespace.resolve_cons_cons, Option.bind_eq_some_iff]
          constructor
          · rintro ⟨m, hm, hresolve⟩
            obtain ⟨s, hs, hplace, ha⟩ := (space?_eq_some_iff hc hp).mp hm
            obtain ⟨route, o, hr, hspelled, rfl⟩ :=
              (ih (hc.of_mem_spaces hs) hplace).mp hresolve
            exact ⟨s.names :: route, o, .deeper hs hr, .cons ha hspelled,
              (hsymbol hplace route o).symm⟩
          · rintro ⟨route, o, hr, hspelled, rfl⟩
            cases hspelled with
            | cons ha hrest =>
                cases hrest with
                | cons ha' hrest =>
                    obtain ⟨s, hs, rfl, hr'⟩ := Draft.holds_cons_cons_iff.mp hr
                    obtain ⟨m, hplace⟩ := exists_place_of_mem_spaces hp hs
                    refine ⟨m, (space?_eq_some_iff hc hp).mpr ⟨s, hs, hplace, ha⟩, ?_⟩
                    exact (ih (hc.of_mem_spaces hs) hplace).mpr
                      ⟨_, o, hr', .cons ha' hrest, hsymbol hplace _ o⟩

/-- No path spells two routes. -/
theorem route_unique (hc : l.Covers d) (h : d.place l path = .ok n)
    {route route' : List Names} {o o' : Object}
    (hr : d.Holds route o) (hr' : d.Holds route' o')
    (hs : l.Spelled locale segments route) (hs' : l.Spelled locale segments route') :
    route = route' ∧ o = o' := by
  induction hr generalizing path n route' segments with
  | @object d o ho =>
      have hp := placed_of_place h
      cases hs with
      | cons ha hrest =>
          cases hrest
          cases hs' with
          | cons ha' hrest' =>
              cases hrest'
              obtain ⟨ho', rfl⟩ := Draft.holds_single_iff.mp hr'
              obtain rfl := (hp.shelved_objects hc).entry_unique ho ho' ha ha'
              exact ⟨rfl, rfl⟩
  | @deeper d s route o hmem hr ih =>
      have hp := placed_of_place h
      obtain ⟨m, hplace⟩ := exists_place_of_mem_spaces hp hmem
      cases hs with
      | cons ha hrest =>
          cases hs' with
          | cons ha' hrest' =>
              cases hr' with
              | object ho' =>
                  cases hrest'
                  cases hrest
                  exact absurd hr Draft.not_holds_nil
              | deeper hmem' hr' =>
                  obtain rfl := (hp.shelved_spaces hc).entry_unique hmem hmem' ha ha'
                  obtain ⟨rfl, rfl⟩ :=
                    ih (hc.of_mem_spaces hmem) hplace hr' hrest hrest'
                  exact ⟨rfl, rfl⟩

/-- Without a locale a route is spelled by its global names. -/
theorem spelled_global (l : Locales) (route : List Names) :
    l.Spelled none (route.map (·.global)) route := by
  rw [Locales.Spelled, List.forall₂_map_left_iff, List.forall₂_same]
  intro n _
  rfl

/-- A path leads to the symbol of an object exactly when it spells the route to this
object. -/
theorem resolve_eq_symbolAt_iff (hc : l.Covers d) (h : d.place l path = .ok n)
    {route : List Names} {o : Object} (hr : d.Holds route o) :
    n.resolve locale segments = some (n.symbolAt route o) ↔
      l.Spelled locale segments route := by
  rw [resolve_eq_some_iff hc h]
  constructor
  · rintro ⟨route', o', hr', hs, hsymbol⟩
    -- The qualified name tells the route that has been taken.
    have hname : n.path ++ route'.map (·.global) = n.path ++ route.map (·.global) := by
      have := congrArg (fun s => s.qualifiedName.segments) hsymbol
      simpa only [Namespace.symbolAt, Symbol.qualifiedName_moved] using this
    have hglobal := List.append_cancel_left hname
    obtain ⟨rfl, rfl⟩ :=
      route_unique hc h hr' hr (spelled_global l route')
        (hglobal ▸ spelled_global l route)
    exact hs
  · intro hs
    exact ⟨route, o, hr, hs, rfl⟩

end Routes

namespace Draft

/-- Whether two texts are the same name in a locale: apart from capitals where some
level of the draft makes no difference of them. -/
def Alike (d : Draft) (locale : Option String) (a b : String) : Prop :=
  match locale with
  | some here =>
      (d.Folds here → Text.lowercase a = Text.lowercase b) ∧ (¬ d.Folds here → a = b)
  | none => a = b

/-- A path writes out the names of a route, segment by segment. -/
def Spelled (d : Draft) (locale : Option String)
    (segments : List String) (route : List Names) : Prop :=
  List.Forall₂ (fun segment n => d.Alike locale segment (n.spelling locale))
    segments route

theorem alike_locales_iff (d : Draft) (locale : Option String) (a b : String) :
    d.locales.Alike locale a b ↔ d.Alike locale a b := by
  cases locale with
  | none => exact Iff.rfl
  | some here =>
      have hfolded : d.locales.isFolded here = true ↔ d.Folds here := by
        rw [Locales.isFolded, List.contains_iff_mem]
        exact mem_foldedLocales_iff here d
      by_cases h : d.Folds here
      · simp [Locales.Alike, Alike, Locales.key, hfolded.mpr h, h]
      · have hexact : d.locales.isFolded here = false := by
          rw [← Bool.not_eq_true, hfolded]
          exact h
        simp [Locales.Alike, Alike, Locales.key, hexact, h]

theorem spelled_locales_iff (d : Draft) (locale : Option String)
    (segments : List String) (route : List Names) :
    d.locales.Spelled locale segments route ↔ d.Spelled locale segments route := by
  simp only [Locales.Spelled, Spelled, alike_locales_iff]

theorem Alike.refl (d : Draft) (locale : Option String) (a : String) :
    d.Alike locale a a := by
  cases locale with
  | none => rfl
  | some here => exact ⟨fun _ => rfl, fun _ => rfl⟩

/-- The spellings of a route spell it. -/
theorem spelled_spellings (d : Draft) (locale : Option String) (route : List Names) :
    d.Spelled locale (route.map (·.spelling locale)) route := by
  rw [Spelled, List.forall₂_map_left_iff, List.forall₂_same]
  intro n _
  exact Alike.refl d locale (n.spelling locale)

/-- The last segment of a path that spells a route to an object spells the object. -/
theorem Holds.alike_last {d root : Draft} {route : List Names} {o : Object}
    (hr : d.Holds route o) {locale : Option String} {parents : List String}
    {name : String} (hs : root.Spelled locale (parents ++ [name]) route) :
    root.Alike locale name (o.names.spelling locale) := by
  induction hr generalizing parents with
  | object ho =>
      cases parents with
      | nil =>
          cases hs with
          | cons ha _ => exact ha
      | cons parent parents =>
          cases hs with
          | cons _ hrest => simpa using hrest.length_eq
  | deeper hmem hr ih =>
      cases parents with
      | nil =>
          cases hs with
          | cons _ hrest =>
              cases hrest
              exact absurd hr not_holds_nil
      | cons parent parents =>
          cases hs with
          | cons _ hrest => exact ih hrest

theorem place_of_register {d : Draft} {n : Namespace} (h : d.register = .ok n) :
    ∃ path, d.place d.locales path = .ok n := by
  obtain ⟨path, -, h⟩ := bind_eq_ok_iff.mp h
  exact ⟨path, h⟩

/-- Lookup in a registered namespace, in a locale or without one.  A path leads to a
symbol exactly when it spells a route to an object with that symbol, and to a given
object exactly when it spells the route to it; so the spellings of a route lead to its
object, a global name that the spelling of the locale hides does not, and no path leads
to two objects. -/
theorem resolve_exact {d : Draft} {n : Namespace} (h : d.register = .ok n)
    (locale : Option String) :
    (∀ segments symbol,
      n.resolve locale segments = some symbol ↔
        ∃ route o, d.Holds route o ∧ d.Spelled locale segments route ∧
          n.symbolAt route o = symbol) ∧
    (∀ route o, d.Holds route o → ∀ segments,
      n.resolve locale segments = some (n.symbolAt route o) ↔
        d.Spelled locale segments route) ∧
    (∀ route o, d.Holds route o →
      n.resolve locale (route.map (·.spelling locale)) = some (n.symbolAt route o)) ∧
    (∀ route o, d.Holds route o →
      ¬ d.Alike locale o.names.global (o.names.spelling locale) →
        ∀ parents, n.resolve locale (parents ++ [o.names.global]) ≠
          some (n.symbolAt route o)) ∧
    (∀ segments route route' o o', d.Holds route o → d.Holds route' o' →
      d.Spelled locale segments route → d.Spelled locale segments route' →
        route = route' ∧ o = o') := by
  obtain ⟨path, hplace⟩ := place_of_register h
  have hc := covers_locales d
  have hfound : ∀ route o, d.Holds route o → ∀ segments,
      n.resolve locale segments = some (n.symbolAt route o) ↔
        d.Spelled locale segments route := by
    intro route o hr segments
    rw [resolve_eq_symbolAt_iff hc hplace hr, spelled_locales_iff]
  refine ⟨?_, hfound, ?_, ?_, ?_⟩
  · intro segments symbol
    simp only [resolve_eq_some_iff hc hplace, spelled_locales_iff]
  · intro route o hr
    exact (hfound route o hr _).mpr (spelled_spellings d locale route)
  · intro route o hr hhidden parents hresolve
    exact hhidden (hr.alike_last ((hfound route o hr _).mp hresolve))
  · intro segments route route' o o' hr hr' hs hs'
    exact route_unique hc hplace hr hr'
      ((spelled_locales_iff d locale segments route).mpr hs)
      ((spelled_locales_iff d locale segments route').mpr hs')

theorem resolve_exact_area :
    let area : Object :=
      (Object.ofSymbol (.variable ⟨⟨["area"]⟩, none⟩)).withAlias "fr" "Aire"
    let country : Draft :=
      (((Draft.named "country").withAlias "fr" "Pays").fold "fr").bind area
    let d : Draft := Draft.root.nest country
    let route : List Names := [country.names, area.names]
    d.Holds route area ∧ ∃ n, d.register = .ok n ∧
      n.resolve (some "fr") ["PAYS", "aire"] = some (n.symbolAt route area) ∧
      n.resolve (some "fr") ["Pays", "area"] ≠ some (n.symbolAt route area) ∧
      n.resolve (some "de") ["country", "area"] = some (n.symbolAt route area) := by
  intro area country d route
  have below : country ∈ d.spaces := List.mem_singleton_self country
  have holds : d.Holds route area :=
    .deeper below (.object (List.mem_singleton_self area))
  have folds : d.Folds "fr" := .deeper below (.here (List.mem_singleton_self "fr"))
  have registers : ∃ n, d.register = .ok n := by
    simp only [d, country, area]
    exact ⟨_, rfl⟩
  obtain ⟨n, hn⟩ := registers
  obtain ⟨-, hfound, -, hhidden, -⟩ := resolve_exact hn (some "fr")
  refine ⟨holds, n, hn, ?_, ?_, ?_⟩
  · refine (hfound route area holds _).mpr (.cons ?_ (.cons ?_ .nil))
    · exact ⟨fun _ => by decide, fun h => absurd folds h⟩
    · exact ⟨fun _ => by decide, fun h => absurd folds h⟩
  · refine hhidden route area holds ?_ ["Pays"]
    exact fun h => absurd (h.1 folds) (by decide)
  · exact (resolve_exact hn (some "de")).2.2.1 route area holds

end Draft

end Criteria
