import Criteria.Names

/-!
# Spelling tables

The entries of one sort at a level are found by their spellings.  A table has, for
every locale that has been written into it, the keys by which spellings are compared,
each with the entry that it stands for.  A key is written once.

**Results.**
* `lookup?_insert?`: writing a key adds this key and no other.
* `hasLocale_insert?`: a table knows a locale once a key has been written for it.
-/

namespace Criteria

/-- The entry that a spelling stands for. -/
structure Spelling where
  /-- The global name of the entry. -/
  global : String
  /-- Whether the locale has an alias for the entry. -/
  localized : Bool
deriving DecidableEq

/-- The spellings of entries, for each locale under their keys. -/
structure SpellingTable where
  sheets : List (String × List (String × Spelling))

namespace SpellingTable

/-- The table without any locale. -/
def empty : SpellingTable :=
  ⟨[]⟩

def hasLocale (t : SpellingTable) (locale : String) : Bool :=
  (t.sheets.lookup locale).isSome

/-- What a key stands for in a locale. -/
def lookup? (t : SpellingTable) (locale key : String) : Option Spelling :=
  (t.sheets.lookup locale).bind (·.lookup key)

/-- Writes a key for a locale, unless it is taken there. -/
def insert? (t : SpellingTable) (locale key : String) (s : Spelling) :
    Option SpellingTable :=
  let sheet := (t.sheets.lookup locale).getD []
  if (sheet.lookup key).isSome then none
  else some ⟨Names.put locale ((key, s) :: sheet) t.sheets⟩

section Laws

variable {t t' : SpellingTable} {locale key : String} {s : Spelling}

theorem lookup?_empty (locale key : String) : empty.lookup? locale key = none := by
  rfl

theorem hasLocale_empty (locale : String) : empty.hasLocale locale = false := by
  rfl

theorem lookup?_getD (t : SpellingTable) (locale key : String) :
    ((t.sheets.lookup locale).getD []).lookup key = t.lookup? locale key := by
  unfold lookup?
  cases t.sheets.lookup locale <;> rfl

theorem insert?_eq_none_iff :
    t.insert? locale key s = none ↔ (t.lookup? locale key).isSome = true := by
  simp only [insert?, lookup?_getD]
  split <;> simp_all

/-- A key is written only where it was free. -/
theorem lookup?_of_insert?
    (h : t.insert? locale key s = some t') :
    t.lookup? locale key = none := by
  have hs : t.insert? locale key s ≠ none := by simp [h]
  rw [Ne, insert?_eq_none_iff] at hs
  simpa using hs

theorem sheets_of_insert?
    (h : t.insert? locale key s = some t') :
    t'.sheets =
      Names.put locale ((key, s) :: (t.sheets.lookup locale).getD []) t.sheets := by
  simp only [insert?] at h
  split at h
  · cases h
  · cases h
    rfl

theorem lookup?_insert?
    (h : t.insert? locale key s = some t') (otherLocale otherKey : String) :
    t'.lookup? otherLocale otherKey =
      if otherLocale = locale ∧ otherKey = key then some s
      else t.lookup? otherLocale otherKey := by
  rw [lookup?, sheets_of_insert? h, Names.lookup_put]
  by_cases hl : otherLocale = locale
  · subst hl
    by_cases hk : otherKey = key
    · simp [hk]
    · have hb : (otherKey == key) = false := by simp [hk]
      simp [List.lookup_cons, hk, hb, lookup?_getD]
  · simp [hl, lookup?]

theorem hasLocale_insert?
    (h : t.insert? locale key s = some t') (other : String) :
    t'.hasLocale other = (decide (other = locale) || t.hasLocale other) := by
  rw [hasLocale, sheets_of_insert? h, Names.lookup_put]
  by_cases hl : other = locale <;> simp [hl, hasLocale]

end Laws

end SpellingTable

end Criteria
