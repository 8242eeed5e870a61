import Criteria.Proofs.DottedNames
import Mathlib.Logic.Relation

/-!
# The format of a path

A text is read as a path when no piece of it between two dots is empty or holds a blank.  A
path is made at once, from its segments, or segment by segment, each one deeper than the last;
the two ways check the segments apart from each other, and both make valid paths only.  A
valid path is read back from its text, so no two paths that were made are written alike.

**Results.**
* `validSegment_iff`: the check of a segment and what it says.
* `reads_iff`: a text is read as a path exactly when every piece of it may be a segment.
* `child_eq_ok_iff`, `Valid.of_grown`: a valid path stays valid however deep it is taken.
* `grown_iff`: a path that is taken deeper keeps its segments, whatever they are.
* `dotted_format`: reading and writing undo each other on all paths that can be made.
-/

namespace Criteria
namespace Path

open Relation (ReflTransGen)

section Segments

/-- What may be a segment: a text that is not empty and holds neither a dot nor a blank. -/
structure Segment (s : String) : Prop where
  nonempty : s ≠ ""
  dotless : '.' ∉ s.toList
  blankless : ∀ c ∈ s.toList, Text.isBlank c = false

theorem validSegment_iff {s : String} : validSegment s = true ↔ Segment s := by
  rw [validSegment, Bool.and_eq_true, List.all_eq_true]
  constructor
  · rintro ⟨hne, hall⟩
    refine ⟨?_, ?_, ?_⟩
    · rintro rfl
      simp at hne
    · intro hdot
      simpa using hall '.' hdot
    · intro c hc
      have hboth := hall c hc
      rw [Bool.and_eq_true, Bool.not_eq_true'] at hboth
      exact hboth.2
  · rintro ⟨hne, hdot, hblank⟩
    refine ⟨by simpa using hne, ?_⟩
    intro c hc
    have hc' : c ≠ '.' := by
      rintro rfl
      exact hdot hc
    simp [hc', hblank c hc]

/-- A path is valid when it has a segment, and all its segments are what a segment may be. -/
theorem valid_iff {p : Path} : p.Valid ↔ p.segments ≠ [] ∧ ∀ s ∈ p.segments, Segment s :=
  and_congr_right fun _ => forall₂_congr fun _ _ => validSegment_iff

end Segments

section Pieces

variable {cs piece : List Char}

theorem splitDots_ne_nil (cs : List Char) : splitDots cs ≠ [] := by
  rw [splitDots_eq_splitOn]
  exact List.splitOnP_ne_nil _ cs

/-- The pieces between the dots hold no dots. -/
theorem dot_notMem_of_mem_splitDots (h : piece ∈ splitDots cs) : '.' ∉ piece := by
  induction cs generalizing piece with
  | nil =>
      rw [splitDots, List.mem_singleton] at h
      simp [h]
  | cons c cs ih =>
      rw [splitDots] at h
      by_cases hc : c = '.'
      · rw [if_pos hc, List.mem_cons] at h
        rcases h with rfl | h
        · simp
        · exact ih h
      · rw [if_neg hc] at h
        cases hpieces : splitDots cs with
        | nil => exact absurd hpieces (splitDots_ne_nil cs)
        | cons first rest =>
            rw [hpieces] at h ih
            rcases List.mem_cons.mp h with rfl | h
            · have hfirst : '.' ∉ first := ih List.mem_cons_self
              simpa [hfirst] using Ne.symm hc
            · exact ih (List.mem_cons_of_mem first h)

/-- A piece without dots may be a segment when it is not empty and holds no blank. -/
theorem segment_ofList_iff (hdot : '.' ∉ piece) :
    Segment (String.ofList piece) ↔ piece ≠ [] ∧ ∀ c ∈ piece, Text.isBlank c = false := by
  constructor
  · rintro ⟨hne, -, hblank⟩
    rw [String.toList_ofList] at hblank
    refine ⟨?_, hblank⟩
    rintro rfl
    exact hne rfl
  · rintro ⟨hne, hblank⟩
    refine ⟨?_, by rwa [String.toList_ofList], by rwa [String.toList_ofList]⟩
    rw [Ne, ← String.toList_inj, String.toList_ofList]
    simpa using hne

/-- A text is read as a path exactly when its pieces are the segments of a valid one. -/
theorem exists_parse_iff (text : String) :
    (∃ p, parse text = .ok p) ↔ Valid ⟨(splitDots text.toList).map String.ofList⟩ := by
  constructor
  · rintro ⟨⟨segments⟩, h⟩
    rcases (ofSegments_eq_ok_iff _ _).mp h with ⟨rfl, hvalid⟩
    exact hvalid
  · intro hvalid
    exact ⟨_, (ofSegments_eq_ok_iff _ _).mpr ⟨rfl, hvalid⟩⟩

/-- A text is read as a path exactly when no piece of it between the dots is empty or holds
a blank. -/
theorem reads_iff (text : String) :
    (∃ p, parse text = .ok p) ↔
      ∀ piece ∈ text.toList.splitOn '.', piece ≠ [] ∧ ∀ c ∈ piece, Text.isBlank c = false := by
  have hne : (splitDots text.toList).map String.ofList ≠ [] := by
    rw [Ne, List.map_eq_nil_iff]
    exact splitDots_ne_nil text.toList
  rw [exists_parse_iff, Valid, and_iff_right hne, List.forall_mem_map, ← splitDots_eq_splitOn]
  refine forall₂_congr fun piece hpiece => ?_
  rw [validSegment_iff, segment_ofList_iff (dot_notMem_of_mem_splitDots hpiece)]

end Pieces

section Grown

variable {p q : Path} {name : String}

theorem child_eq_ok_iff :
    p.child name = .ok q ↔ validSegment name = true ∧ q.segments = p.segments ++ [name] := by
  rw [child]
  by_cases hname : validSegment name = true
  · rw [if_pos hname, and_iff_right hname, Except.ok.injEq]
    constructor
    · rintro rfl
      rfl
    · intro hsegments
      cases q
      rw [← hsegments]
  · simp [hname]

/-- One path is one segment deeper than the other. -/
def Grows (p q : Path) : Prop :=
  ∃ name, p.child name = .ok q

theorem Valid.grows (hp : p.Valid) (h : p.Grows q) : q.Valid := by
  rcases h with ⟨name, hchild⟩
  rcases child_eq_ok_iff.mp hchild with ⟨hname, hsegments⟩
  rw [Valid, hsegments]
  refine ⟨by simp, ?_⟩
  intro s hs
  rcases List.mem_append.mp hs with hs | hs
  · exact hp.2 s hs
  · rw [List.mem_singleton.mp hs]
    exact hname

/-- A valid path stays valid however deep it is taken. -/
theorem Valid.of_grown (hp : p.Valid) (h : ReflTransGen Grows p q) : q.Valid := by
  induction h with
  | refl => exact hp
  | tail _ hstep ih => exact ih.grows hstep

/-- A path that is taken deeper keeps its segments, and those that follow may be segments.
Nothing is asked of the segments it had. -/
theorem grown_iff :
    ReflTransGen Grows p q ↔
      ∃ names, (∀ s ∈ names, Segment s) ∧ q.segments = p.segments ++ names := by
  constructor
  · intro h
    induction h with
    | refl => exact ⟨[], by simp, by simp⟩
    | tail _ hstep ih =>
        rcases ih with ⟨names, hnames, hsegments⟩
        rcases hstep with ⟨name, hchild⟩
        rcases child_eq_ok_iff.mp hchild with ⟨hname, hdeeper⟩
        refine ⟨names ++ [name], List.forall_mem_append.mpr ⟨hnames, ?_⟩, ?_⟩
        · exact List.forall_mem_singleton.mpr (validSegment_iff.mp hname)
        · rw [hdeeper, hsegments, List.append_assoc]
  · rintro ⟨names, hnames, hsegments⟩
    induction names generalizing p with
    | nil =>
        rw [List.append_nil] at hsegments
        cases p
        cases q
        cases hsegments
        exact .refl
    | cons name names ih =>
        rcases List.forall_mem_cons.mp hnames with ⟨hname, hrest⟩
        have hchild : p.child name = .ok ⟨p.segments ++ [name]⟩ :=
          child_eq_ok_iff.mpr ⟨validSegment_iff.mpr hname, rfl⟩
        exact .head ⟨name, hchild⟩ (ih hrest (by simpa using hsegments))

/-- The paths that can be made: from a list of segments, and from there deeper. -/
def Made (q : Path) : Prop :=
  ∃ segments p, ofSegments segments = .ok p ∧ ReflTransGen Grows p q

theorem Made.valid (h : q.Made) : q.Valid := by
  rcases h with ⟨segments, p, hp, hgrown⟩
  exact ((ofSegments_eq_ok_iff segments p).mp hp).2.of_grown hgrown

theorem ofSegments_eq_ok {segments : List String} (hne : segments ≠ [])
    (hsegments : ∀ s ∈ segments, Segment s) :
    ofSegments segments = .ok ⟨segments⟩ :=
  (ofSegments_eq_ok_iff _ _).mpr ⟨rfl, hne, fun s hs => validSegment_iff.mpr (hsegments s hs)⟩

end Grown

/-- Reading takes exactly the texts whose pieces may be segments, and what is read is written
as it was.  A list of segments makes a path, which is read back from its text, and so is every
path that is reached from it segment by segment.  Paths that can be made are told from their
texts. -/
theorem dotted_format :
    (∀ text : String,
      ((∃ p, parse text = .ok p) ↔
        ∀ piece ∈ text.toList.splitOn '.',
          piece ≠ [] ∧ ∀ c ∈ piece, Text.isBlank c = false) ∧
      ∀ p, parse text = .ok p → p.render = text) ∧
    (∀ segments : List String, segments ≠ [] → (∀ s ∈ segments, Segment s) →
      ∃ p, ofSegments segments = .ok p ∧ p.segments = segments ∧ parse p.render = .ok p ∧
        ∀ q, ReflTransGen Grows p q → parse q.render = .ok q) ∧
    ∀ q q' : Path, q.Made → q'.Made → q ≠ q' → q.render ≠ q'.render := by
  refine ⟨?_, ?_, ?_⟩
  · intro text
    exact ⟨reads_iff text, fun p h => (parse_eq_ok_iff.mp h).2⟩
  · intro segments hne hsegments
    have hp := ofSegments_eq_ok hne hsegments
    have hvalid := ((ofSegments_eq_ok_iff _ _).mp hp).2
    refine ⟨_, hp, rfl, parse_render hvalid, ?_⟩
    intro q hgrown
    exact parse_render (hvalid.of_grown hgrown)
  · intro q q' hq hq' hne hrender
    exact hne ((render_inj hq.valid hq'.valid).mp hrender)

/-- A text that is read and one with an empty piece; a path made from two segments and taken
one deeper; and a path with as many segments that is written in another way. -/
theorem dotted_format_city :
    let made : Path := ⟨["user", "city"]⟩
    let deeper (name : String) : Path := ⟨["user", "city", name]⟩
    parse "user.city.area" = .ok (deeper "area") ∧ (deeper "area").render = "user.city.area" ∧
      (¬ ∃ p, parse "user..area" = .ok p) ∧
      ofSegments ["user", "city"] = .ok made ∧ made.child "area" = .ok (deeper "area") ∧
      parse (deeper "area").render = .ok (deeper "area") ∧
      (deeper "area").render ≠ (deeper "mayor").render := by
  intro made deeper
  obtain ⟨hread, hmade, hapart⟩ := dotted_format
  have hparse : parse "user.city.area" = .ok (deeper "area") := rfl
  have hsegments : ∀ s ∈ ["user", "city"], Segment s := by
    refine List.forall_mem_cons.mpr ⟨?_, List.forall_mem_singleton.mpr ?_⟩
    · exact validSegment_iff.mp rfl
    · exact validSegment_iff.mp rfl
  obtain ⟨p, hp, -, -, hgrown⟩ := hmade ["user", "city"] (by decide) hsegments
  have hp' : ofSegments ["user", "city"] = .ok made := rfl
  cases hp'.symm.trans hp
  have harea : ReflTransGen Grows made (deeper "area") := .single ⟨"area", rfl⟩
  have hmayor : ReflTransGen Grows made (deeper "mayor") := .single ⟨"mayor", rfl⟩
  refine ⟨hparse, (hread "user.city.area").2 _ hparse, ?_, hp', rfl, hgrown _ harea,
    hapart _ _ ⟨_, _, hp', harea⟩ ⟨_, _, hp', hmayor⟩ (by decide)⟩
  rw [(hread "user..area").1]
  intro hpieces
  have hempty : [] ∈ "user..area".toList.splitOn '.' := by decide
  exact (hpieces [] hempty).1 rfl

end Path
end Criteria
