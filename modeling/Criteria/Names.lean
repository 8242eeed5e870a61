/-!
# Localized names

An object or a namespace has a global name and may be spelled differently in some
locales.  The aliases keep the order in which their locales were first given.

**Results.**
* `alias?_withAlias`: a new alias is found in its locale and disturbs no other.
* `locales_withAlias`: a second alias for a locale takes the place of the first.
-/

namespace Criteria

/-- A global name with its spelling in some locales. -/
structure Names where
  global : String
  aliases : List (String × String)
deriving DecidableEq

namespace Names

section Put

variable {β : Type} (key : String) (value : β)

/-- Puts a value under a key, in the place of the one it replaces or else last. -/
def put : List (String × β) → List (String × β)
  | [] => [(key, value)]
  | (k, v) :: rest =>
      if k = key then (key, value) :: rest else (k, v) :: put rest

theorem lookup_put (other : String) :
    ∀ l : List (String × β),
      (put key value l).lookup other =
        if other = key then some value else l.lookup other
  | [] => by
      by_cases h : other = key
      · simp [put, h]
      · have hb : (other == key) = false := by simp [h]
        simp [put, List.lookup_cons, h, hb]
  | (k, v) :: rest => by
      have ih := lookup_put other rest
      by_cases h : other = k
      · subst h
        by_cases hk : other = key
        · simp [put, hk]
        · simp [put, hk]
      · have hb : (other == k) = false := by simp [h]
        by_cases hk : k = key
        · subst hk
          simp [put, List.lookup_cons, h, hb]
        · simp [put, hk, List.lookup_cons, hb, ih]

theorem map_fst_put :
    ∀ l : List (String × β),
      (put key value l).map (·.1) =
        if key ∈ l.map (·.1) then l.map (·.1) else l.map (·.1) ++ [key]
  | [] => by simp [put]
  | (k, v) :: rest => by
      have ih := map_fst_put rest
      by_cases hk : k = key
      · simp [put, hk]
      · have hk' : ¬key = k := fun h => hk h.symm
        simp only [put, hk, if_false, List.map_cons, ih, List.mem_cons, hk',
          false_or]
        split <;> simp

end Put

/-- A name that is spelled alike everywhere. -/
def ofGlobal (global : String) : Names :=
  ⟨global, []⟩

/-- Spells the name differently in a locale. -/
def withAlias (n : Names) (locale name : String) : Names :=
  ⟨n.global, put locale name n.aliases⟩

/-- The alias for a locale. -/
def alias? (n : Names) (locale : String) : Option String :=
  n.aliases.lookup locale

/-- The spelling in a locale: the alias there, or else the global name. -/
def spelling (n : Names) (locale : Option String) : String :=
  (locale.bind n.alias?).getD n.global

/-- The locales with an alias. -/
def locales (n : Names) : List String :=
  n.aliases.map (·.1)

theorem alias?_withAlias (n : Names) (locale name other : String) :
    (n.withAlias locale name).alias? other =
      if other = locale then some name else n.alias? other :=
  lookup_put locale name other n.aliases

theorem locales_withAlias (n : Names) (locale name : String) :
    (n.withAlias locale name).locales =
      if locale ∈ n.locales then n.locales else n.locales ++ [locale] :=
  map_fst_put locale name n.aliases

end Names

end Criteria
