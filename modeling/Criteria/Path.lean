import Criteria.Construction
import Criteria.Json
import Criteria.Text.Blank

/-!
# Identifier paths

A path is written as segments joined by dots, the outermost first.  The ways to
build a path refuse a segment that is empty or that holds a dot or a blank; the
bare structure, which is what a stored document is read into, refuses nothing.

**Results.**
* `ofSegments_eq_ok_iff`: a path is built from exactly the non-empty lists of
  valid segments.
* `ofJson?_eq_some_iff`: every path can be stored, and is read back from the
  document that stores it and from no other.
-/

namespace Criteria

/-- A dotted path of names. -/
structure Path where
  segments : List String
deriving DecidableEq

namespace Path

/-- A segment is not empty and holds neither a dot nor a blank. -/
def validSegment (s : String) : Bool :=
  !s.toList.isEmpty && s.toList.all fun c => c ≠ '.' && !Text.isBlank c

/-- Segments joined by dots. -/
def joinDots (segments : List String) : String :=
  ".".intercalate segments

/-- The pieces of a text between its dots. -/
def splitDots : List Char → List (List Char)
  | [] => [[]]
  | c :: cs =>
      if c = '.' then [] :: splitDots cs
      else
        match splitDots cs with
        | [] => [[c]]
        | piece :: pieces => (c :: piece) :: pieces

/-- The written form of a path. -/
def render (p : Path) : String :=
  joinDots p.segments

/-- The path with these segments. -/
def ofSegments (segments : List String) : Except ConstructionError Path :=
  if segments.isEmpty || !segments.all validSegment then
    .error (.invalidPath (joinDots segments))
  else .ok ⟨segments⟩

/-- The path that a dotted text writes. -/
def parse (s : String) : Except ConstructionError Path :=
  ofSegments ((splitDots s.toList).map String.ofList)

/-- The path with one segment. -/
def single (name : String) : Except ConstructionError Path :=
  ofSegments [name]

/-- The path one segment deeper. -/
def child (p : Path) (name : String) : Except ConstructionError Path :=
  if validSegment name then .ok ⟨p.segments ++ [name]⟩
  else .error (.invalidPath s!"{p.render}.{name}")

/-- The last segment, or the empty text when there is none. -/
def name (p : Path) : String :=
  p.segments.getLastD ""

/-- All segments but the last. -/
def scope (p : Path) : List String :=
  p.segments.dropLast

/-- A path is stored as the array of its segments. -/
def toJson (p : Path) : Json :=
  .array (p.segments.map .string)

/-- The path that a document stores.  Its segments are taken as they stand. -/
def ofJson? (doc : Json) : Option Path :=
  doc.strings?.map Path.mk

/-- Whether a path could have been built: it has a segment, and all are valid. -/
def Valid (p : Path) : Prop :=
  p.segments ≠ [] ∧ ∀ s ∈ p.segments, validSegment s = true

instance (p : Path) : Decidable p.Valid :=
  inferInstanceAs (Decidable (_ ∧ _))

theorem ofSegments_eq_ok_iff (segments : List String) (p : Path) :
    ofSegments segments = .ok p ↔ p.segments = segments ∧ p.Valid := by
  unfold ofSegments Valid
  split
  · next h =>
      simp only [reduceCtorEq, false_iff, not_and]
      rintro rfl hne hall
      simp only [Bool.or_eq_true, List.isEmpty_iff, Bool.not_eq_true',
        List.all_eq_false, hne, false_or] at h
      obtain ⟨s, hs, hv⟩ := h
      exact hv (hall s hs)
  · next h =>
      simp only [Bool.or_eq_true, List.isEmpty_iff, Bool.not_eq_true', not_or,
        Bool.not_eq_false, List.all_eq_true] at h
      constructor
      · intro he
        cases he
        exact ⟨rfl, h.1, h.2⟩
      · rintro ⟨rfl, -⟩
        rfl

theorem ofJson?_eq_some_iff {doc : Json} {p : Path} :
    ofJson? doc = some p ↔ doc = p.toJson := by
  rw [ofJson?, Option.map_eq_some_iff, toJson]
  constructor
  · rintro ⟨segments, h, rfl⟩
    exact Json.strings?_eq_some_iff.mp h
  · intro h
    exact ⟨p.segments, Json.strings?_eq_some_iff.mpr h, rfl⟩

end Path

end Criteria
