import Criteria.Proofs.PathFormat

/-!
# How paths are obtained

A path is made from one segment, from a dotted text or from a list of segments; it is read from
a document that stores it; or it is another path, taken one segment deeper.  All of these check
the segments that they add, but for the reading of a document, which takes the stored segments
as they stand.  A path that breaks the rules therefore goes back to a document, and once it is
read it is taken deeper like any other.

**Results.**
* `Obtained.valid_or_grown`: a path that is obtained is valid or goes back to a stored one.
* `obtained_iff`: the paths that can be obtained, and when all of them are valid.
* `stored_without_segments`: an empty array is read as a path.
-/

namespace Criteria
namespace Path

open Relation (ReflTransGen)

/-- The paths that can be obtained when no other documents are read than the given ones. -/
inductive Obtained (read : Json → Prop) : Path → Prop where
  | single {name : String} {p : Path} (h : Path.single name = .ok p) : Obtained read p
  | parse {text : String} {p : Path} (h : Path.parse text = .ok p) : Obtained read p
  | ofSegments {segments : List String} {p : Path} (h : Path.ofSegments segments = .ok p) :
      Obtained read p
  | stored {doc : Json} {p : Path} (hread : read doc) (h : ofJson? doc = some p) :
      Obtained read p
  | child {p q : Path} {name : String} (hp : Obtained read p) (h : p.child name = .ok q) :
      Obtained read q

variable {read : Json → Prop} {p q : Path}

/-- A valid path is obtained from its segments, whatever documents are read. -/
theorem Valid.obtained (h : q.Valid) : Obtained read q :=
  .ofSegments ((ofSegments_eq_ok_iff q.segments q).mpr ⟨rfl, h⟩)

/-- A path is obtained, valid or not, from the document that stores it. -/
theorem obtained_of_read (h : read p.toJson) : Obtained read p :=
  .stored h (ofJson?_eq_some_iff.mpr rfl)

theorem Obtained.of_grown (hp : Obtained read p) (h : ReflTransGen Grows p q) :
    Obtained read q := by
  induction h with
  | refl => exact hp
  | tail _ hstep ih =>
      rcases hstep with ⟨name, hchild⟩
      exact .child ih hchild

/-- A path that is obtained is valid, or it is a stored path that was taken deeper. -/
theorem Obtained.valid_or_grown (h : Obtained read q) :
    q.Valid ∨ ∃ stored : Path, read stored.toJson ∧ ReflTransGen Grows stored q := by
  induction h with
  | single h => exact .inl ((ofSegments_eq_ok_iff _ _).mp h).2
  | parse h => exact .inl (parse_eq_ok_iff.mp h).1
  | ofSegments h => exact .inl ((ofSegments_eq_ok_iff _ _).mp h).2
  | stored hread h =>
      cases ofJson?_eq_some_iff.mp h
      exact .inr ⟨_, hread, .refl⟩
  | @child p q name _ h ih =>
      have hgrows : p.Grows q := ⟨name, h⟩
      rcases ih with hvalid | ⟨stored, hread, hgrown⟩
      · exact .inl (hvalid.grows hgrows)
      · exact .inr ⟨stored, hread, hgrown.tail hgrows⟩

/-- The paths that can be obtained are the valid ones and those that add segments, each of which
may be one, to a stored path of any kind.  All of them are valid exactly when the stored paths
are that are read. -/
theorem obtained_iff (read : Json → Prop) :
    (∀ q, Obtained read q ↔
      (q.segments ≠ [] ∧ ∀ s ∈ q.segments, Segment s) ∨
        ∃ stored : Path, read stored.toJson ∧
          ∃ names, (∀ s ∈ names, Segment s) ∧ q.segments = stored.segments ++ names) ∧
    ((∀ q, Obtained read q → q.segments ≠ [] ∧ ∀ s ∈ q.segments, Segment s) ↔
      ∀ stored : Path, read stored.toJson →
        stored.segments ≠ [] ∧ ∀ s ∈ stored.segments, Segment s) := by
  simp only [← grown_iff, ← valid_iff]
  constructor
  · intro q
    constructor
    · exact Obtained.valid_or_grown
    · rintro (hvalid | ⟨stored, hread, hgrown⟩)
      · exact hvalid.obtained
      · exact (obtained_of_read hread).of_grown hgrown
  · constructor
    · intro hall stored hread
      exact hall stored (obtained_of_read hread)
    · intro hstored q hq
      rcases hq.valid_or_grown with hvalid | ⟨stored, hread, hgrown⟩
      · exact hvalid
      · exact (hstored stored hread).of_grown hgrown

/-- Where one document is read, which stores the path of a user, all paths are valid; where it
stores a segment with a blank, the blank stays however deep the path is taken. -/
theorem obtained_iff_user :
    let user (doc : Json) : Prop := doc = .array [.string "user"]
    let firstName (doc : Json) : Prop := doc = .array [.string "first name"]
    Obtained user ⟨["user", "role"]⟩ ∧
      (∀ q, Obtained user q → q.segments ≠ [] ∧ ∀ s ∈ q.segments, Segment s) ∧
      Obtained firstName ⟨["first name", "role"]⟩ ∧
      ¬ ∀ q, Obtained firstName q → q.segments ≠ [] ∧ ∀ s ∈ q.segments, Segment s := by
  intro user firstName
  have hrole : ∀ s ∈ ["role"], Segment s :=
    List.forall_mem_singleton.mpr (validSegment_iff.mp rfl)
  obtain ⟨huser, hvalid⟩ := obtained_iff user
  obtain ⟨hfirstName, hvalid'⟩ := obtained_iff firstName
  refine ⟨(huser _).mpr (.inr ⟨⟨["user"]⟩, rfl, ["role"], hrole, rfl⟩), hvalid.mpr ?_,
    (hfirstName _).mpr (.inr ⟨⟨["first name"]⟩, rfl, ["role"], hrole, rfl⟩), ?_⟩
  · intro stored hread
    -- No other path is stored as this document.
    have hstored : ofJson? (.array [.string "user"]) = some stored :=
      ofJson?_eq_some_iff.mpr hread.symm
    cases hstored
    exact ⟨by decide, List.forall_mem_singleton.mpr (validSegment_iff.mp rfl)⟩
  · rw [hvalid']
    intro hstored
    have hsegment : Segment "first name" := (hstored ⟨["first name"]⟩ rfl).2 _ List.mem_cons_self
    have hblank := hsegment.blankless ' ' (by decide)
    cases hblank

/-- An empty array is read as a path, which has no segments: not every path that can be obtained
is valid. -/
theorem stored_without_segments :
    ¬ ∀ q, Obtained (fun _ => True) q → q.segments ≠ [] ∧ ∀ s ∈ q.segments, Segment s := by
  intro hall
  have hread : ofJson? (.array []) = some ⟨[]⟩ := rfl
  exact (hall ⟨[]⟩ (.stored trivial hread)).1 rfl

end Path
end Criteria
