import Criteria.Namespace.Lookup
import Criteria.Proofs.Outcome
import Mathlib.Data.List.Nodup

/-!
# Registered namespaces

What registration makes of a draft, level by level: the objects stand there in the
order of the draft, each qualified by its place, the global names of a table are
different, and the spelling tables hold, for every known locale, the key of each entry
and no other key.

**Results.**
* `spells_fillTables`: tables that are filled without a conflict hold exactly the
  spellings of the entries.
* `placed_of_place`: how a level that has been placed comes from its draft.
* `mem_foldedLocales_iff`: capitals make no difference in a locale exactly when some
  level of the draft declares so.
-/

namespace Criteria

open Outcome

/-- What a table says of an entry in a locale. -/
def Names.spellingIn (n : Names) (locale : String) : Spelling :=
  ⟨n.global, (n.alias? locale).isSome⟩

/-- A table holds the spellings of entries in some locales, and nothing else. -/
structure SpellingTable.Spells (t : SpellingTable) (l : Locales)
    (here : List String) (entries : List Names) : Prop where
  hasLocale_iff : ∀ locale,
    t.hasLocale locale = true ↔ locale ∈ here ∧ entries ≠ []
  lookup?_iff : ∀ locale key s,
    t.lookup? locale key = some s ↔
      locale ∈ here ∧
        ∃ n ∈ entries, l.key locale (n.spelling (some locale)) = key ∧
          n.spellingIn locale = s

section Tables

variable {l : Locales} {path : List String} {shelf : Shelf} {locale : String}
  {t t' : SpellingTable}

theorem fillTable_cons_eq_ok_iff {n : Names} {ns : List Names} :
    fillTable l path shelf locale t (n :: ns) = .ok t' ↔
      ∃ t₁, t.insert? locale (l.key locale (n.spelling (some locale)))
          (n.spellingIn locale) = some t₁ ∧
        fillTable l path shelf locale t₁ ns = .ok t' := by
  rw [fillTable]
  constructor
  · intro h
    split at h
    · cases h
    · next t₁ ht₁ => exact ⟨t₁, ht₁, h⟩
  · rintro ⟨t₁, ht₁, h⟩
    rw [Names.spellingIn] at ht₁
    simpa only [ht₁] using h

theorem hasLocale_fillTable {ns : List Names}
    (h : fillTable l path shelf locale t ns = .ok t') (other : String) :
    t'.hasLocale other = true ↔
      t.hasLocale other = true ∨ other = locale ∧ ns ≠ [] := by
  induction ns generalizing t with
  | nil =>
      cases h
      simp
  | cons n ns ih =>
      obtain ⟨t₁, ht₁, h⟩ := fillTable_cons_eq_ok_iff.mp h
      rw [ih h, SpellingTable.hasLocale_insert? ht₁]
      simp only [Bool.or_eq_true, decide_eq_true_eq]
      constructor
      · rintro ((rfl | ht) | ⟨rfl, -⟩)
        · exact Or.inr ⟨rfl, List.cons_ne_nil n ns⟩
        · exact Or.inl ht
        · exact Or.inr ⟨rfl, List.cons_ne_nil n ns⟩
      · rintro (ht | ⟨rfl, -⟩)
        · exact Or.inl (Or.inr ht)
        · exact Or.inl (Or.inl rfl)

theorem lookup?_fillTable {ns : List Names}
    (h : fillTable l path shelf locale t ns = .ok t')
    (other key : String) (s : Spelling) :
    t'.lookup? other key = some s ↔
      t.lookup? other key = some s ∨
        other = locale ∧
          ∃ n ∈ ns, l.key locale (n.spelling (some locale)) = key ∧
            n.spellingIn locale = s := by
  induction ns generalizing t with
  | nil =>
      cases h
      simp
  | cons n ns ih =>
      obtain ⟨t₁, ht₁, h⟩ := fillTable_cons_eq_ok_iff.mp h
      have hfree := SpellingTable.lookup?_of_insert? ht₁
      rw [ih h, SpellingTable.lookup?_insert? ht₁]
      split
      · next hkey =>
          obtain ⟨rfl, rfl⟩ := hkey
          rw [hfree]
          simp [eq_comm]
      · next hkey =>
          constructor
          · rintro (ht | ⟨rfl, n', hn', hs⟩)
            · exact Or.inl ht
            · exact Or.inr ⟨rfl, n', List.mem_cons_of_mem n hn', hs⟩
          · rintro (ht | ⟨rfl, n', hn', hk, hs⟩)
            · exact Or.inl ht
            · rcases List.mem_cons.mp hn' with rfl | hn'
              · exact absurd ⟨rfl, hk.symm⟩ hkey
              · exact Or.inr ⟨rfl, n', hn', hk, hs⟩

/-- Filling one more locale. -/
theorem SpellingTable.Spells.fillTable {here : List String} {ns : List Names}
    (ht : t.Spells l here ns)
    (h : Criteria.fillTable l path shelf locale t ns = .ok t') :
    t'.Spells l (locale :: here) ns where
  hasLocale_iff other := by
    rw [hasLocale_fillTable h, ht.hasLocale_iff, List.mem_cons]
    constructor
    · rintro (⟨hm, hn⟩ | ⟨rfl, hn⟩)
      · exact ⟨Or.inr hm, hn⟩
      · exact ⟨Or.inl rfl, hn⟩
    · rintro ⟨rfl | hm, hn⟩
      · exact Or.inr ⟨rfl, hn⟩
      · exact Or.inl ⟨hm, hn⟩
  lookup?_iff other key s := by
    rw [lookup?_fillTable h, ht.lookup?_iff, List.mem_cons]
    constructor
    · rintro (⟨hm, hn⟩ | ⟨rfl, hn⟩)
      · exact ⟨Or.inr hm, hn⟩
      · exact ⟨Or.inl rfl, hn⟩
    · rintro ⟨rfl | hm, hn⟩
      · exact Or.inr ⟨rfl, hn⟩
      · exact Or.inl ⟨hm, hn⟩

theorem SpellingTable.spells_empty (l : Locales) (ns : List Names) :
    SpellingTable.empty.Spells l [] ns where
  hasLocale_iff locale := by simp [hasLocale_empty]
  lookup?_iff locale key s := by simp [lookup?_empty]

theorem SpellingTable.Spells.of_mem_iff {here here' : List String} {ns : List Names}
    (ht : t.Spells l here ns) (h : ∀ locale, locale ∈ here ↔ locale ∈ here') :
    t.Spells l here' ns where
  hasLocale_iff other := by rw [ht.hasLocale_iff, h]
  lookup?_iff other key s := by rw [ht.lookup?_iff, h]

/-- Filling the two tables of a level for the rest of the locales. -/
theorem spells_fillTables {objects spaces : List Names} {u u' : SpellingTable}
    {here rest : List String}
    (ht : t.Spells l here objects) (hu : u.Spells l here spaces)
    (h : fillTables l path objects spaces t u rest = .ok (t', u')) :
    t'.Spells l (rest.reverse ++ here) objects ∧
      u'.Spells l (rest.reverse ++ here) spaces := by
  induction rest generalizing here t u with
  | nil =>
      cases h
      exact ⟨ht, hu⟩
  | cons locale rest ih =>
      rw [fillTables, bind_eq_ok_iff] at h
      obtain ⟨t₁, ht₁, h⟩ := h
      obtain ⟨u₁, hu₁, h⟩ := bind_eq_ok_iff.mp h
      rw [List.reverse_cons, List.append_assoc, List.singleton_append]
      exact ih (ht.fillTable ht₁) (hu.fillTable hu₁) h

end Tables

section Places

variable {l : Locales} {path : List String}

/-- The qualified name of an entry of a level. -/
theorem segments_of_qualify {name : String} {q : Path}
    (h : qualify path name = .ok q) : q.segments = path ++ [name] := by
  rw [qualify, mapError_eq_ok_iff, Path.ofSegments_eq_ok_iff] at h
  exact h.1

/-- An object whose template is qualified by its place in a level. -/
def Object.inPlace (path : List String) (o : Object) : Object :=
  { o with symbol := o.symbol.moved ⟨path ++ [o.names.global]⟩ }

theorem placeObject_eq {o placed : Object} (h : placeObject path o = .ok placed) :
    placed = o.inPlace path := by
  rw [placeObject, bind_eq_ok_iff] at h
  obtain ⟨q, hq, h⟩ := h
  rw [Object.inPlace, ← segments_of_qualify hq]
  rcases hs : o.symbol with t | t
  · simp only [hs] at h
    cases h
    rfl
  · simp only [hs] at h
    obtain ⟨-, -, h⟩ := bind_eq_ok_iff.mp h
    cases h
    rfl

/-- The names of entries are different and free when the first name is free and the
others are different and free beside it. -/
theorem free_cons_iff {α : Type} {global : α → String} {taken : List String} {x : α}
    {xs : List α} :
    (((x :: xs).map global).Nodup ∧ ∀ y ∈ x :: xs, global y ∉ taken) ↔
      global x ∉ taken ∧
        (xs.map global).Nodup ∧ ∀ y ∈ xs, global y ∉ global x :: taken := by
  rw [List.forall_mem_cons]
  simp only [List.map_cons, List.nodup_cons, List.mem_map, not_exists, not_and,
    List.mem_cons, not_or]
  constructor
  · rintro ⟨⟨hx, hnodup⟩, hfree, hall⟩
    exact ⟨hfree, hnodup, fun y hy => ⟨hx y hy, hall y hy⟩⟩
  · rintro ⟨hfree, hnodup, hall⟩
    exact ⟨⟨fun y hy => (hall y hy).1, hnodup⟩, hfree, fun y hy => (hall y hy).2⟩

theorem placeObjects_eq {taken : List String} {os placed : List Object}
    (h : placeObjects path taken os = .ok placed) :
    placed = os.map (Object.inPlace path) ∧
      (os.map (·.names.global)).Nodup ∧
        ∀ o ∈ os, o.names.global ∉ taken := by
  induction os generalizing taken placed with
  | nil =>
      cases h
      simp
  | cons o os ih =>
      rw [placeObjects] at h
      split at h
      · cases h
      · next hfree =>
          obtain ⟨first, hfirst, h⟩ := bind_eq_ok_iff.mp h
          obtain ⟨rest, hrest, h⟩ := bind_eq_ok_iff.mp h
          cases h
          obtain ⟨rfl, hnames⟩ := ih hrest
          refine ⟨?_, free_cons_iff.mpr ⟨hfree, hnames⟩⟩
          rw [placeObject_eq hfirst, List.map_cons]

theorem placeSpaces_forall₂ {taken : List String} {ds : List Draft}
    {placed : List Namespace} (h : placeSpaces l path taken ds = .ok placed) :
    List.Forall₂ (fun d n => d.place l (path ++ [d.names.global]) = .ok n) ds placed ∧
      (ds.map (·.names.global)).Nodup ∧
        ∀ d ∈ ds, d.names.global ∉ taken := by
  induction ds generalizing taken placed with
  | nil =>
      cases h
      simp
  | cons d ds ih =>
      rw [placeSpaces] at h
      split at h
      · cases h
      · next hfree =>
          obtain ⟨q, hq, h⟩ := bind_eq_ok_iff.mp h
          obtain ⟨first, hfirst, h⟩ := bind_eq_ok_iff.mp h
          obtain ⟨rest, hrest, h⟩ := bind_eq_ok_iff.mp h
          cases h
          obtain ⟨hall, hnames⟩ := ih hrest
          rw [segments_of_qualify hq] at hfirst
          exact ⟨List.Forall₂.cons hfirst hall, free_cons_iff.mpr ⟨hfree, hnames⟩⟩

/-- How a level comes from its draft. -/
structure Draft.Placed (l : Locales) (path : List String) (d : Draft) (n : Namespace) :
    Prop where
  names_eq : n.names = d.names
  path_eq : n.path = path
  locales_eq : n.locales = l
  objects_eq : n.objects = d.objects.map (Object.inPlace path)
  objects_nodup : (d.objects.map (·.names.global)).Nodup
  objects_spelled : n.objectTable.Spells l l.known (d.objects.map (·.names))
  spaces_placed :
    List.Forall₂ (fun s m => s.place l (path ++ [s.names.global]) = .ok m)
      d.spaces n.spaces
  spaces_nodup : (d.spaces.map (·.names.global)).Nodup
  spaces_spelled : n.spaceTable.Spells l l.known (d.spaces.map (·.names))

theorem names_of_place {d : Draft} {n : Namespace} (h : d.place l path = .ok n) :
    n.names = d.names := by
  obtain ⟨names, objects, spaces, folded⟩ := d
  rw [Draft.place] at h
  obtain ⟨_, -, h⟩ := bind_eq_ok_iff.mp h
  obtain ⟨_, -, h⟩ := bind_eq_ok_iff.mp h
  obtain ⟨_, -, h⟩ := bind_eq_ok_iff.mp h
  cases h
  rfl

theorem map_names_of_forall₂ {ds : List Draft} {ns : List Namespace}
    (h : List.Forall₂ (fun d n => d.place l (path ++ [d.names.global]) = .ok n) ds ns) :
    ns.map (·.names) = ds.map (·.names) := by
  induction h with
  | nil => rfl
  | cons hd _ ih => rw [List.map_cons, List.map_cons, names_of_place hd, ih]

theorem mem_iff_of_forall₂ {ds : List Draft} {ns : List Namespace} {m : Namespace}
    (h : List.Forall₂ (fun d n => d.place l (path ++ [d.names.global]) = .ok n) ds ns) :
    m ∈ ns ↔ ∃ d ∈ ds, d.place l (path ++ [d.names.global]) = .ok m := by
  induction h with
  | nil => simp
  | @cons d n ds ns hd _ ih =>
      simp only [List.mem_cons, ih, exists_eq_or_imp, hd, Except.ok.injEq]
      rw [eq_comm]

theorem map_names_inPlace (os : List Object) :
    (os.map (Object.inPlace path)).map (·.names) = os.map (·.names) := by
  rw [List.map_map]
  rfl

theorem placed_of_place {d : Draft} {n : Namespace} (h : d.place l path = .ok n) :
    d.Placed l path n := by
  obtain ⟨names, objects, spaces, folded⟩ := d
  rw [Draft.place] at h
  obtain ⟨placedObjects, hobjects, h⟩ := bind_eq_ok_iff.mp h
  obtain ⟨placedSpaces, hspaces, h⟩ := bind_eq_ok_iff.mp h
  obtain ⟨⟨objectTable, spaceTable⟩, htables, h⟩ := bind_eq_ok_iff.mp h
  cases h
  obtain ⟨rfl, hobjectsNodup, -⟩ := placeObjects_eq hobjects
  obtain ⟨hplaced, hspacesNodup, -⟩ := placeSpaces_forall₂ hspaces
  rw [map_names_inPlace, map_names_of_forall₂ hplaced] at htables
  obtain ⟨ho, hs⟩ :=
    spells_fillTables (SpellingTable.spells_empty l _) (SpellingTable.spells_empty l _)
      htables
  have hknown (locale : String) :
      locale ∈ l.known.reverse ++ [] ↔ locale ∈ l.known := by simp
  exact ⟨rfl, rfl, rfl, rfl, hobjectsNodup, ho.of_mem_iff hknown, hplaced, hspacesNodup,
    hs.of_mem_iff hknown⟩

end Places

namespace Draft

mutual

private theorem of_spaces {motive : Draft → Prop}
    (level : ∀ d, (∀ s ∈ d.spaces, motive s) → motive d) :
    ∀ d, motive d
  | ⟨_, _, spaces, _⟩ => level _ (of_spacesAll level spaces)

private theorem of_spacesAll {motive : Draft → Prop}
    (level : ∀ d, (∀ s ∈ d.spaces, motive s) → motive d) :
    ∀ ds : List Draft, ∀ s ∈ ds, motive s
  | [] => by simp
  | d :: ds => by
      simpa using ⟨of_spaces level d, of_spacesAll level ds⟩

end

/-- What passes from the levels below to a level holds of all drafts. -/
@[elab_as_elim]
theorem space_induction {motive : Draft → Prop}
    (level : ∀ d, (∀ s ∈ d.spaces, motive s) → motive d) (d : Draft) :
    motive d :=
  of_spaces level d

section Locales

theorem mem_aliasLocalesAll (locale : String) (ds : List Draft) :
    locale ∈ aliasLocalesAll ds ↔ ∃ d ∈ ds, locale ∈ d.aliasLocales := by
  induction ds with
  | nil => simp [aliasLocalesAll]
  | cons d ds ih => simp [aliasLocalesAll, ih]

/-- The locales with aliases are those of the level itself, of its objects and of the
levels below. -/
theorem mem_aliasLocales (locale : String) (d : Draft) :
    locale ∈ d.aliasLocales ↔
      (locale ∈ d.names.locales ∨ ∃ o ∈ d.objects, locale ∈ o.names.locales) ∨
        ∃ s ∈ d.spaces, locale ∈ s.aliasLocales := by
  obtain ⟨names, objects, spaces, folded⟩ := d
  simp [aliasLocales, mem_aliasLocalesAll, or_assoc]

theorem mem_foldedLocalesAll (locale : String) (ds : List Draft) :
    locale ∈ foldedLocalesAll ds ↔ ∃ d ∈ ds, locale ∈ d.foldedLocales := by
  induction ds with
  | nil => simp [foldedLocalesAll]
  | cons d ds ih => simp [foldedLocalesAll, ih]

theorem mem_foldedLocales (locale : String) (d : Draft) :
    locale ∈ d.foldedLocales ↔
      locale ∈ d.folded ∨ ∃ s ∈ d.spaces, locale ∈ s.foldedLocales := by
  obtain ⟨names, objects, spaces, folded⟩ := d
  simp [foldedLocales, mem_foldedLocalesAll]

/-- Some level of the draft declares that capitals make no difference in a locale. -/
inductive Folds (locale : String) : Draft → Prop
  | here {d : Draft} : locale ∈ d.folded → Folds locale d
  | deeper {d s : Draft} : s ∈ d.spaces → Folds locale s → Folds locale d

theorem mem_foldedLocales_iff (locale : String) (d : Draft) :
    locale ∈ d.foldedLocales ↔ d.Folds locale := by
  constructor
  · intro h
    induction d using space_induction with
    | level d ih =>
        rcases (mem_foldedLocales locale d).mp h with h | ⟨s, hs, h⟩
        · exact Folds.here h
        · exact Folds.deeper hs (ih s hs h)
  · intro h
    induction h with
    | here h => exact (mem_foldedLocales locale _).mpr (Or.inl h)
    | deeper hs _ ih => exact (mem_foldedLocales locale _).mpr (Or.inr ⟨_, hs, ih⟩)

end Locales

end Draft

end Criteria
