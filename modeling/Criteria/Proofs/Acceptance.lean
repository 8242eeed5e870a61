import Criteria.Proofs.Lookup

/-!
# Drafts without conflict

A draft is registered exactly when no level of it has a conflict.  What a conflict is
depends on the whole draft: the names of a level have to differ in every locale that any
level speaks of, and capitals make no difference where any level declares so.

The steps of registration are taken one by one.  Each succeeds under a condition of its
own, and a level is placed exactly when the conditions of its steps hold and the levels
below can be placed.

**Results.**
* `validate_eq_ok_iff`: which templates are accepted.
* `exists_fillTables_iff`: the tables of a level can be filled exactly when its keys
  differ in each locale.
* `exists_place_iff`: a level is placed exactly when no level of it has a conflict.
* `exists_register_iff`: which drafts are registered.
-/

namespace Criteria

open Outcome

namespace FunctionTemplate

variable {α : Type}

/-- The parameters of a template have different names, and each default has the kind that
its parameter declares. -/
structure Sound (t : FunctionTemplate α) : Prop where
  names_nodup : (t.parameters.map (·.name)).Nodup
  defaults_fit : ∀ x ∈ t.optional, ∀ k, x.1.kind = some k → x.2.kind = k

theorem firstRepeated?_eq_none_iff (earlier names : List String) :
    firstRepeated? earlier names = none ↔
      names.Nodup ∧ ∀ n ∈ names, n ∉ earlier := by
  induction names generalizing earlier with
  | nil => simp [firstRepeated?]
  | cons n ns ih =>
      rw [firstRepeated?]
      split
      · next hmem => simp [hmem]
      · next hfree =>
          rw [ih, List.nodup_cons]
          simp only [List.mem_append, List.mem_singleton, not_or, List.forall_mem_cons]
          constructor
          · rintro ⟨hnodup, hall⟩
            exact ⟨⟨fun hn => (hall n hn).2 rfl, hnodup⟩, hfree,
              fun m hm => (hall m hm).1⟩
          · rintro ⟨⟨hn, hnodup⟩, -, hall⟩
            exact ⟨hnodup, fun m hm => ⟨hall m hm, fun heq => hn (heq ▸ hm)⟩⟩

theorem wrongDefault?_eq_none_iff (optional : List (Parameter × Constant α)) :
    wrongDefault? optional = none ↔
      ∀ x ∈ optional, ∀ k, x.1.kind = some k → x.2.kind = k := by
  induction optional with
  | nil => simp [wrongDefault?]
  | cons x rest ih =>
      obtain ⟨p, c⟩ := x
      rw [wrongDefault?, List.forall_mem_cons, ← ih]
      cases p.kind with
      | none => simp
      | some declared =>
          by_cases h : declared = c.kind
          · simp [h]
          · simp [h, eq_comm]

theorem validate_eq_ok_iff (t : FunctionTemplate α) :
    t.validate = .ok () ↔ t.Sound := by
  have hfault : t.fault? = none ↔ t.Sound := by
    rw [fault?]
    constructor
    · intro h
      split at h
      · cases h
      · next hnames =>
          exact ⟨((firstRepeated?_eq_none_iff _ _).mp hnames).1,
            (wrongDefault?_eq_none_iff _).mp h⟩
    · rintro ⟨hnames, hdefaults⟩
      rw [(firstRepeated?_eq_none_iff _ _).mpr ⟨hnames, by simp⟩]
      exact (wrongDefault?_eq_none_iff _).mpr hdefaults
  rw [← hfault, validate]
  cases t.fault? <;> simp

end FunctionTemplate

namespace Locales

theorem pairwise_insert (locale : String) (ls : List String)
    (h : ls.Pairwise (· < ·)) : (insert locale ls).Pairwise (· < ·) := by
  induction ls with
  | nil => simp [insert]
  | cons l ls ih =>
      obtain ⟨hl, hls⟩ := List.pairwise_cons.mp h
      rw [insert]
      split
      · next hlt =>
          refine List.pairwise_cons.mpr ⟨?_, h⟩
          intro x hx
          rcases List.mem_cons.mp hx with rfl | hx
          · exact hlt
          · exact String.lt_trans hlt (hl x hx)
      · next hnlt =>
          split
          · exact h
          · next hne =>
              have hlt : l < locale := by
                by_contra hge
                exact hne (String.le_antisymm (String.not_lt.mp hge)
                  (String.not_lt.mp hnlt))
              refine List.pairwise_cons.mpr ⟨?_, ih hls⟩
              intro x hx
              rcases (mem_insert locale x ls).mp hx with rfl | hx
              · exact hlt
              · exact hl x hx

/-- The locales of a list are kept in ascending order. -/
theorem pairwise_ascending (ls : List String) : (ascending ls).Pairwise (· < ·) := by
  induction ls with
  | nil => exact List.Pairwise.nil
  | cons l ls ih => exact pairwise_insert l (ascending ls) ih

theorem nodup_ascending (ls : List String) : (ascending ls).Nodup := by
  refine (pairwise_ascending ls).imp ?_
  rintro a b hlt rfl
  exact String.lt_irrefl a hlt

end Locales

section Tables

variable {l : Locales} {path : List String} {shelf : Shelf} {locale : String}
  {t : SpellingTable}

/-- What the spelling of names in a locale is compared by. -/
def Locales.keyOf (l : Locales) (locale : String) (n : Names) : String :=
  l.key locale (n.spelling (some locale))

/-- The keys of entries in a locale differ and are free in a table. -/
def SpellingTable.Takes (t : SpellingTable) (l : Locales) (locale : String)
    (ns : List Names) : Prop :=
  (ns.map (l.keyOf locale)).Nodup ∧
    ∀ n ∈ ns, t.lookup? locale (l.keyOf locale n) = none

theorem exists_fillTable_iff {ns : List Names} :
    (∃ t', fillTable l path shelf locale t ns = .ok t') ↔ t.Takes l locale ns := by
  rw [SpellingTable.Takes]
  induction ns generalizing t with
  | nil => simp [fillTable, pure, Except.pure]
  | cons n ns ih =>
      simp only [fillTable_cons_eq_ok_iff]
      cases hinsert : t.insert? locale (l.keyOf locale n) (n.spellingIn locale) with
      | none =>
          have htaken := SpellingTable.insert?_eq_none_iff.mp hinsert
          rw [Option.isSome_iff_ne_none] at htaken
          rw [Locales.keyOf] at hinsert htaken
          simp [hinsert, Locales.keyOf, htaken]
      | some t₁ =>
          have hfree := SpellingTable.lookup?_of_insert? hinsert
          have hrest (m : Names) : t₁.lookup? locale (l.keyOf locale m) = none ↔
              l.keyOf locale m ≠ l.keyOf locale n ∧
                t.lookup? locale (l.keyOf locale m) = none := by
            rw [SpellingTable.lookup?_insert? hinsert]
            split <;> simp_all
          rw [Locales.keyOf] at hinsert
          simp only [hinsert, Option.some.injEq, exists_eq_left', ih, hrest]
          rw [List.map_cons, List.nodup_cons, List.forall_mem_cons]
          simp only [hfree, true_and, List.mem_map, not_exists, not_and]
          constructor
          · rintro ⟨hnodup, hall⟩
            exact ⟨⟨fun m hm => (hall m hm).1, hnodup⟩, fun m hm => (hall m hm).2⟩
          · rintro ⟨⟨hkeys, hnodup⟩, hall⟩
            exact ⟨hnodup, fun m hm => ⟨hkeys m hm, hall m hm⟩⟩

/-- Filling one locale leaves the others as they are. -/
theorem takes_fillTable_iff {t' : SpellingTable} {ns ns' : List Names} {other : String}
    (h : fillTable l path shelf locale t ns = .ok t') (hne : other ≠ locale) :
    t'.Takes l other ns' ↔ t.Takes l other ns' := by
  have hsame (key : String) : t'.lookup? other key = t.lookup? other key := by
    ext s
    simp [lookup?_fillTable h, hne]
  simp only [SpellingTable.Takes, hsame]

/-- The tables of a level can be filled exactly when both take their entries in each
locale. -/
theorem exists_fillTables_iff {objects spaces : List Names} {u : SpellingTable}
    {rest : List String} (hrest : rest.Nodup) :
    (∃ tables, fillTables l path objects spaces t u rest = .ok tables) ↔
      ∀ locale ∈ rest, t.Takes l locale objects ∧ u.Takes l locale spaces := by
  induction rest generalizing t u with
  | nil => simp [fillTables, exists_pure_eq_ok]
  | cons locale rest ih =>
      obtain ⟨hlocale, hrest⟩ := List.nodup_cons.mp hrest
      rw [fillTables, List.forall_mem_cons, exists_bind_eq_ok_iff]
      simp only [exists_bind_eq_ok_iff, ih hrest]
      have hother {t' u' : SpellingTable}
          (ht' : fillTable l path .objects locale t objects = .ok t')
          (hu' : fillTable l path .spaces locale u spaces = .ok u') :
          (∀ x ∈ rest, t'.Takes l x objects ∧ u'.Takes l x spaces) ↔
            ∀ x ∈ rest, t.Takes l x objects ∧ u.Takes l x spaces := by
        refine forall₂_congr fun x hx => ?_
        have hne : x ≠ locale := fun heq => hlocale (heq ▸ hx)
        rw [takes_fillTable_iff ht' hne, takes_fillTable_iff hu' hne]
      constructor
      · rintro ⟨t', ht', u', hu', hall⟩
        exact ⟨⟨exists_fillTable_iff.mp ⟨t', ht'⟩, exists_fillTable_iff.mp ⟨u', hu'⟩⟩,
          (hother ht' hu').mp hall⟩
      · rintro ⟨⟨ht, hu⟩, hall⟩
        obtain ⟨t', ht'⟩ := exists_fillTable_iff.mpr ht
        obtain ⟨u', hu'⟩ := exists_fillTable_iff.mpr hu
        exact ⟨t', ht', u', hu', (hother ht' hu').mpr hall⟩

end Tables

section Places

variable {path : List String}

/-- A level whose path is valid qualifies exactly the valid names. -/
theorem qualify_eq_ok_iff (hpath : ∀ s ∈ path, Path.validSegment s = true)
    {name : String} {q : Path} :
    qualify path name = .ok q ↔ Path.validSegment name = true ∧ q = ⟨path ++ [name]⟩ := by
  rw [qualify, mapError_eq_ok_iff, Path.ofSegments_eq_ok_iff]
  constructor
  · rintro ⟨hq, -, hvalid⟩
    refine ⟨hvalid name (by simp [hq]), ?_⟩
    rw [← hq]
  · rintro ⟨hname, rfl⟩
    exact ⟨rfl, by simp, List.forall_mem_append.mpr
      ⟨hpath, List.forall_mem_singleton.mpr hname⟩⟩

/-- A template can be registered. -/
def Symbol.Sound : Symbol → Prop
  | .variable _ => True
  | .function template => template.Sound

theorem exists_placeObject_iff (hpath : ∀ s ∈ path, Path.validSegment s = true)
    {o : Object} :
    (∃ placed, placeObject path o = .ok placed) ↔
      Path.validSegment o.names.global = true ∧ o.symbol.Sound := by
  rw [placeObject, exists_bind_eq_ok_iff]
  simp only [qualify_eq_ok_iff hpath]
  cases o.symbol with
  | «variable» t =>
      simp only [exists_pure_eq_ok, and_true, Symbol.Sound]
      simp
  | function t =>
      simp only [exists_bind_eq_ok_iff, mapError_eq_ok_iff, exists_pure_eq_ok, and_true,
        Symbol.Sound, ← FunctionTemplate.validate_eq_ok_iff]
      constructor
      · rintro ⟨-, ⟨hvalid, rfl⟩, ⟨⟩, hsound⟩
        exact ⟨hvalid, hsound⟩
      · rintro ⟨hvalid, hsound⟩
        exact ⟨_, ⟨hvalid, rfl⟩, (), hsound⟩

theorem exists_placeObjects_iff (hpath : ∀ s ∈ path, Path.validSegment s = true)
    {taken : List String} {os : List Object} :
    (∃ placed, placeObjects path taken os = .ok placed) ↔
      ((os.map (·.names.global)).Nodup ∧ ∀ o ∈ os, o.names.global ∉ taken) ∧
        ∀ o ∈ os, Path.validSegment o.names.global = true ∧ o.symbol.Sound := by
  induction os generalizing taken with
  | nil => simp [placeObjects, exists_pure_eq_ok]
  | cons o os ih =>
      rw [placeObjects, free_cons_iff, List.forall_mem_cons]
      split
      · next hmem => simp [hmem]
      · next hfree =>
          simp only [exists_bind_eq_ok_iff, exists_pure_eq_ok, and_true, ih,
            exists_and_right, exists_placeObject_iff hpath]
          constructor
          · rintro ⟨hfirst, hnames, hrest⟩
            exact ⟨⟨hfree, hnames⟩, hfirst, hrest⟩
          · rintro ⟨⟨-, hnames⟩, hfirst, hrest⟩
            exact ⟨hfirst, hnames, hrest⟩

theorem exists_placeSpaces_iff {l : Locales}
    (hpath : ∀ s ∈ path, Path.validSegment s = true)
    {taken : List String} {ds : List Draft} :
    (∃ placed, placeSpaces l path taken ds = .ok placed) ↔
      ((ds.map (·.names.global)).Nodup ∧ ∀ d ∈ ds, d.names.global ∉ taken) ∧
        ∀ d ∈ ds, Path.validSegment d.names.global = true ∧
          ∃ n, d.place l (path ++ [d.names.global]) = .ok n := by
  induction ds generalizing taken with
  | nil => simp [placeSpaces, exists_pure_eq_ok]
  | cons d ds ih =>
      rw [placeSpaces, free_cons_iff, List.forall_mem_cons]
      split
      · next hmem => simp [hmem]
      · next hfree =>
          simp only [exists_bind_eq_ok_iff, exists_pure_eq_ok, and_true, ih,
            qualify_eq_ok_iff hpath]
          constructor
          · rintro ⟨-, ⟨hvalid, rfl⟩, n, hn, hnames, hrest⟩
            exact ⟨⟨hfree, hnames⟩, ⟨hvalid, n, hn⟩, hrest⟩
          · rintro ⟨⟨-, hnames⟩, ⟨hvalid, n, hn⟩, hrest⟩
            exact ⟨_, ⟨hvalid, rfl⟩, n, hn, hnames, hrest⟩

end Places

namespace Draft

/-- The levels of a draft: the draft itself and the levels below. -/
inductive HasLevel : Draft → Draft → Prop
  | here {d : Draft} : HasLevel d d
  | deeper {d s level : Draft} : s ∈ d.spaces → HasLevel s level → HasLevel d level

/-- A draft speaks of a locale when a level or an object in it has an alias there, or a
level declares that capitals make no difference. -/
def Speaks (d : Draft) (locale : String) : Prop :=
  (∃ s, d.HasLevel s ∧
    (locale ∈ s.names.locales ∨ ∃ o ∈ s.objects, locale ∈ o.names.locales)) ∨
      d.Folds locale

/-- No two entries are spelled alike in a locale that the draft speaks of. -/
def SpelledApart (d : Draft) (entries : List Names) : Prop :=
  ∀ locale, d.Speaks locale → entries.Pairwise fun n m =>
    ¬ d.Alike (some locale) (n.spelling (some locale)) (m.spelling (some locale))

/-- The entries of one table of a level have different global names, all of them valid,
and are spelled differently in every locale that the draft speaks of. -/
structure Distinguishes (d : Draft) (entries : List Names) : Prop where
  nodup : (entries.map (·.global)).Nodup
  valid : ∀ n ∈ entries, Path.validSegment n.global = true
  apart : d.SpelledApart entries

/-- Nothing at a level of a draft stands in the way of its registration. -/
structure Clear (d level : Draft) : Prop where
  objects : d.Distinguishes (level.objects.map (·.names))
  symbols : ∀ o ∈ level.objects, o.symbol.Sound
  spaces : d.Distinguishes (level.spaces.map (·.names))

section Levels

variable {d : Draft}

/-- What holds of all levels holds of the draft and of all levels of those below. -/
theorem forall_hasLevel_iff {P : Draft → Prop} :
    (∀ level, d.HasLevel level → P level) ↔
      P d ∧ ∀ s ∈ d.spaces, ∀ level, s.HasLevel level → P level := by
  constructor
  · intro h
    exact ⟨h d .here, fun s hs level hl => h level (.deeper hs hl)⟩
  · rintro ⟨hd, hspaces⟩ level hl
    cases hl with
    | here => exact hd
    | deeper hs hl => exact hspaces _ hs level hl

theorem exists_hasLevel_iff {P : Draft → Prop} :
    (∃ level, d.HasLevel level ∧ P level) ↔
      P d ∨ ∃ s ∈ d.spaces, ∃ level, s.HasLevel level ∧ P level := by
  constructor
  · rintro ⟨level, hl, hp⟩
    cases hl with
    | here => exact Or.inl hp
    | deeper hs hl => exact Or.inr ⟨_, hs, level, hl, hp⟩
  · rintro (hp | ⟨s, hs, level, hl, hp⟩)
    · exact ⟨d, .here, hp⟩
    · exact ⟨level, .deeper hs hl, hp⟩

theorem mem_aliasLocales_iff (locale : String) (d : Draft) :
    locale ∈ d.aliasLocales ↔ ∃ s, d.HasLevel s ∧
      (locale ∈ s.names.locales ∨ ∃ o ∈ s.objects, locale ∈ o.names.locales) := by
  induction d using space_induction with
  | level d ih =>
      rw [mem_aliasLocales, exists_hasLevel_iff]
      refine or_congr Iff.rfl (exists_congr fun s => and_congr_right fun hs => ih s hs)

/-- The known locales are those that the draft speaks of. -/
theorem mem_known_iff (locale : String) (d : Draft) :
    locale ∈ d.locales.known ↔ d.Speaks locale := by
  rw [locales, Locales.mem_ascending, List.mem_append, mem_aliasLocales_iff,
    mem_foldedLocales_iff, Speaks]

end Levels

section Acceptance

variable {root d : Draft} {path : List String}

theorem distinguishes_map_iff {α : Type} {names : α → Names} {xs : List α} :
    root.Distinguishes (xs.map names) ↔
      (xs.map fun x => (names x).global).Nodup ∧
        (∀ x ∈ xs, Path.validSegment (names x).global = true) ∧
          root.SpelledApart (xs.map names) := by
  have hnodup : ((xs.map names).map (·.global)).Nodup ↔
      (xs.map fun x => (names x).global).Nodup := by
    rw [List.map_map]
    rfl
  constructor
  · rintro ⟨hn, hvalid, hapart⟩
    exact ⟨hnodup.mp hn, List.forall_mem_map.mp hvalid, hapart⟩
  · rintro ⟨hn, hvalid, hapart⟩
    exact ⟨hnodup.mpr hn, List.forall_mem_map.mpr hvalid, hapart⟩

/-- Empty tables take entries that are spelled differently. -/
theorem takes_empty_iff (locale : String) (ns : List Names) :
    SpellingTable.empty.Takes root.locales locale ns ↔ ns.Pairwise fun n m =>
      ¬ root.Alike (some locale) (n.spelling (some locale))
        (m.spelling (some locale)) := by
  simp only [SpellingTable.Takes, SpellingTable.lookup?_empty, implies_true, and_true,
    List.Nodup, List.pairwise_map, ← alike_locales_iff]
  rfl

/-- The tables of a level are filled exactly when its entries are spelled apart. -/
theorem exists_fillTables_known_iff {objects spaces : List Names} :
    (∃ tables, fillTables root.locales path objects spaces .empty .empty
      root.locales.known = .ok tables) ↔
        root.SpelledApart objects ∧ root.SpelledApart spaces := by
  have hknown : root.locales.known.Nodup := Locales.nodup_ascending _
  rw [exists_fillTables_iff hknown]
  simp only [takes_empty_iff, mem_known_iff, SpelledApart]
  constructor
  · intro h
    exact ⟨fun x hx => (h x hx).1, fun x hx => (h x hx).2⟩
  · rintro ⟨ho, hs⟩ x hx
    exact ⟨ho x hx, hs x hx⟩

/-- A level is placed exactly when nothing stands in its way and the levels below can be
placed. -/
theorem exists_place_iff_of_spaces (hpath : ∀ s ∈ path, Path.validSegment s = true) :
    (∃ n, d.place root.locales path = .ok n) ↔
      root.Clear d ∧
        ∀ s ∈ d.spaces, ∃ n, s.place root.locales (path ++ [s.names.global]) = .ok n := by
  obtain ⟨names, objects, spaces, folded⟩ := d
  have hobjects : (∃ placed, placeObjects path [] objects = .ok placed) ↔
      (objects.map (·.names.global)).Nodup ∧
        ∀ o ∈ objects, Path.validSegment o.names.global = true ∧ o.symbol.Sound := by
    rw [exists_placeObjects_iff hpath]
    simp
  have hspaces : (∃ below, placeSpaces root.locales path [] spaces = .ok below) ↔
      (spaces.map (·.names.global)).Nodup ∧
        ∀ s ∈ spaces, Path.validSegment s.names.global = true ∧
          ∃ n, s.place root.locales (path ++ [s.names.global]) = .ok n := by
    rw [exists_placeSpaces_iff hpath]
    simp
  have htables {placed : List Object} {below : List Namespace}
      (hplaced : placeObjects path [] objects = .ok placed)
      (hbelow : placeSpaces root.locales path [] spaces = .ok below) :
      (∃ tables, fillTables root.locales path (placed.map (·.names)) (below.map (·.names))
        .empty .empty root.locales.known = .ok tables) ↔
          root.SpelledApart (objects.map (·.names)) ∧
            root.SpelledApart (spaces.map (·.names)) := by
    rw [(placeObjects_eq hplaced).1, map_names_inPlace,
      map_names_of_forall₂ (placeSpaces_forall₂ hbelow).1, exists_fillTables_known_iff]
  rw [place]
  simp only [exists_bind_eq_ok_iff, exists_pure_eq_ok, and_true]
  constructor
  · rintro ⟨placed, hplaced, below, hbelow, hfill⟩
    obtain ⟨hnodup, hvalid⟩ := hobjects.mp ⟨placed, hplaced⟩
    obtain ⟨hnodup', hvalid'⟩ := hspaces.mp ⟨below, hbelow⟩
    obtain ⟨hapart, hapart'⟩ := (htables hplaced hbelow).mp hfill
    refine ⟨⟨?_, fun o ho => (hvalid o ho).2, ?_⟩, fun s hs => (hvalid' s hs).2⟩
    · exact distinguishes_map_iff.mpr ⟨hnodup, fun o ho => (hvalid o ho).1, hapart⟩
    · exact distinguishes_map_iff.mpr ⟨hnodup', fun s hs => (hvalid' s hs).1, hapart'⟩
  · rintro ⟨⟨ho, hsymbols, hs⟩, hbelow⟩
    obtain ⟨hnodup, hvalid, hapart⟩ := distinguishes_map_iff.mp ho
    obtain ⟨hnodup', hvalid', hapart'⟩ := distinguishes_map_iff.mp hs
    obtain ⟨placed, hplaced⟩ :=
      hobjects.mpr ⟨hnodup, fun o ho => ⟨hvalid o ho, hsymbols o ho⟩⟩
    obtain ⟨below, hbelow⟩ :=
      hspaces.mpr ⟨hnodup', fun s hs => ⟨hvalid' s hs, hbelow s hs⟩⟩
    exact ⟨placed, hplaced, below, hbelow,
      (htables hplaced hbelow).mpr ⟨hapart, hapart'⟩⟩

/-- A draft is placed exactly when nothing stands in the way of any of its levels. -/
theorem exists_place_iff (hpath : ∀ s ∈ path, Path.validSegment s = true) :
    (∃ n, d.place root.locales path = .ok n) ↔
      ∀ level, d.HasLevel level → root.Clear level := by
  induction d using space_induction generalizing path with
  | level d ih =>
      rw [exists_place_iff_of_spaces hpath, forall_hasLevel_iff]
      refine and_congr_right fun hclear => forall₂_congr fun s hs => ih s hs ?_
      have hname : Path.validSegment s.names.global = true :=
        hclear.spaces.valid s.names (List.mem_map_of_mem hs)
      exact List.forall_mem_append.mpr ⟨hpath, List.forall_mem_singleton.mpr hname⟩

theorem rootPath_eq_ok_iff :
    d.rootPath = .ok path ↔
      (d.names.global = "" ∧ path = []) ∨
        (Path.validSegment d.names.global = true ∧ path = [d.names.global]) := by
  have hempty : Path.validSegment "" = false := by decide
  rw [rootPath]
  split
  · next hroot => simp [hroot, hempty, pure, Except.pure, eq_comm]
  · next hroot =>
      rw [bind_eq_ok_iff]
      constructor
      · rintro ⟨q, hq, h⟩
        cases h
        obtain ⟨hsegments, -, hvalid⟩ :=
          (Path.ofSegments_eq_ok_iff _ _).mp (mapError_eq_ok_iff.mp hq)
        exact Or.inr ⟨hvalid _ (by simp [hsegments]), hsegments⟩
      · rintro (⟨hname, -⟩ | ⟨hvalid, rfl⟩)
        · exact absurd hname hroot
        · refine ⟨⟨[d.names.global]⟩, mapError_eq_ok_iff.mpr ?_, rfl⟩
          exact (Path.ofSegments_eq_ok_iff _ _).mpr
            ⟨rfl, List.cons_ne_nil _ _, List.forall_mem_singleton.mpr hvalid⟩

theorem valid_of_rootPath (h : d.rootPath = .ok path) :
    ∀ s ∈ path, Path.validSegment s = true := by
  rcases rootPath_eq_ok_iff.mp h with ⟨-, rfl⟩ | ⟨hname, rfl⟩
  · exact fun _ hs => absurd hs List.not_mem_nil
  · exact List.forall_mem_singleton.mpr hname

/-- Nothing stands in the way of any level of a draft that has been registered. -/
theorem clear_of_register {n : Namespace} (h : d.register = .ok n) {level : Draft}
    (hl : d.HasLevel level) : d.Clear level := by
  obtain ⟨path, hroot, hplace⟩ := bind_eq_ok_iff.mp h
  exact (exists_place_iff (valid_of_rootPath hroot)).mp ⟨n, hplace⟩ level hl

end Acceptance

/-- A draft is registered exactly when its root has no name or a valid one and nothing
stands in the way of any of its levels. -/
theorem exists_register_iff (d : Draft) :
    (∃ n, d.register = .ok n) ↔
      (d.names.global = "" ∨ Path.validSegment d.names.global = true) ∧
        ∀ level, d.HasLevel level → d.Clear level := by
  rw [register, exists_bind_eq_ok_iff]
  constructor
  · rintro ⟨path, hroot, hplace⟩
    refine ⟨?_, (exists_place_iff (valid_of_rootPath hroot)).mp hplace⟩
    rcases rootPath_eq_ok_iff.mp hroot with ⟨hname, -⟩ | ⟨hname, -⟩
    · exact Or.inl hname
    · exact Or.inr hname
  · rintro ⟨hname | hname, hclear⟩
    · exact ⟨[], rootPath_eq_ok_iff.mpr (Or.inl ⟨hname, rfl⟩),
        (exists_place_iff (by simp)).mpr hclear⟩
    · exact ⟨[d.names.global], rootPath_eq_ok_iff.mpr (Or.inr ⟨hname, rfl⟩),
        (exists_place_iff (by simpa using hname)).mpr hclear⟩

/-- Two names that differ in capitals conflict as soon as another level makes capitals the
same. -/
example :
    let object (name : String) : Object := Object.ofSymbol (.variable ⟨⟨[name]⟩, none⟩)
    let d : Draft := (Draft.root.bind (object "area")).bind (object "AREA")
    d.register.toBool = true ∧
      (d.nest ((Draft.named "other").fold "fr")).register.toBool = false := by
  decide

end Draft

end Criteria
