import Criteria.Decimal

/-!
# JSON documents

The documents that options, error codes and diagnostics are stored in, and that a
condition is dumped to.  A number written with a fraction or an exponent is kept
apart from an integer, even when it is a whole number.

**Results.**
* `strings?_eq_some_iff`: the documents that hold a list of texts.
-/

namespace Criteria

/-- A JSON document; the fields of an object keep their order. -/
inductive Json where
  | null
  | boolean (b : Bool)
  | integer (n : Int)
  | decimal (d : Decimal)
  | string (s : String)
  | array (items : List Json)
  | object (fields : List (String × Json))

namespace Json

instance : Inhabited Json := ⟨null⟩

/-- The value of a field of an object; any other document has no fields. -/
def field? (name : String) : Json → Option Json
  | object fields => fields.lookup name
  | _ => none

/-- A text or nothing: a missing field and a null count as nothing. -/
def optionalString? : Option Json → Option (Option String)
  | none => some none
  | some null => some none
  | some (string s) => some (some s)
  | some _ => none

/-- The text of a string. -/
def string? : Json → Option String
  | string s => some s
  | _ => none

/-- An integer from zero up to, and not including, a bound. -/
def natural? (bound : Nat) : Json → Option Nat
  | integer n => if 0 ≤ n ∧ n.toNat < bound then some n.toNat else none
  | _ => none

/-- The list of texts that an array of strings holds. -/
def strings? : Json → Option (List String)
  | array items => items.mapM string?
  | _ => none

/-- A text, or null in its absence. -/
def ofOption : Option String → Json
  | some s => string s
  | none => null

theorem string?_eq_some_iff {doc : Json} {s : String} :
    doc.string? = some s ↔ doc = string s := by
  cases doc <;> simp [string?]

theorem mapM_string?_eq_some_iff {items : List Json} {texts : List String} :
    items.mapM string? = some texts ↔ items = texts.map string := by
  induction items generalizing texts with
  | nil => cases texts <;> simp
  | cons item items ih =>
      rw [List.mapM_cons]
      simp only [Option.bind_eq_bind, Option.bind_eq_some_iff, Option.pure_def,
        Option.some.injEq, string?_eq_some_iff, ih]
      constructor
      · rintro ⟨s, rfl, rest, rfl, rfl⟩
        rfl
      · intro h
        cases texts with
        | nil => cases h
        | cons s rest =>
            rw [List.map_cons, List.cons.injEq] at h
            exact ⟨s, h.1, rest, h.2, rfl⟩

/-- A list of texts is held by the array of exactly these texts and by no other document. -/
theorem strings?_eq_some_iff {doc : Json} {texts : List String} :
    doc.strings? = some texts ↔ doc = array (texts.map string) := by
  cases doc <;> simp [strings?, mapM_string?_eq_some_iff]

end Json

end Criteria
