import Criteria.Path

/-!
# Dotted names

A path is written by joining its segments with dots and read by cutting a text at its dots.
Since no valid segment holds a dot, each undoes the other, and two valid paths that are
written alike are the same path.

**Results.**
* `splitDots_joinDots`: cutting at the dots gives back segments that hold none.
* `joinDots_inj`: segments without dots are told from their joined text.
* `joinDots_inj_of_length`: so they are where only the number of the other segments is known.
* `parse_eq_ok_iff`: a text is read as the valid path that is written so.
* `render_inj`: valid paths that are written alike are equal.
-/

namespace Criteria
namespace Path

section Dots

theorem splitDots_eq_splitOn (cs : List Char) : splitDots cs = cs.splitOn '.' := by
  induction cs with
  | nil => rfl
  | cons c cs ih =>
      rw [splitDots, List.splitOn, List.splitOnP_cons_eq_if_modifyHead, ← List.splitOn, ← ih]
      by_cases hc : c = '.'
      · simp [hc]
      · rw [if_neg hc, if_neg (by simpa using hc)]
        cases hpieces : splitDots cs with
        | nil =>
            -- Cutting a text gives at least one piece.
            rw [hpieces] at ih
            exact absurd ih.symm (List.splitOnP_ne_nil _ cs)
        | cons piece pieces => rfl

variable {segments segments' : List String}

theorem splitDots_joinDots (hne : segments ≠ [])
    (hdots : ∀ s ∈ segments, '.' ∉ s.toList) :
    splitDots (joinDots segments).toList = segments.map String.toList := by
  have hpieces : ∀ piece ∈ segments.map String.toList, '.' ∉ piece :=
    List.forall_mem_map.mpr hdots
  have hsome : segments.map String.toList ≠ [] := by simpa using hne
  rw [splitDots_eq_splitOn, joinDots, String.toList_intercalate]
  exact List.splitOn_intercalate '.' hpieces hsome

/-- Segments that hold no dots are told from their joined text. -/
theorem joinDots_inj (hne : segments ≠ []) (hne' : segments' ≠ [])
    (hdots : ∀ s ∈ segments, '.' ∉ s.toList) (hdots' : ∀ s ∈ segments', '.' ∉ s.toList)
    (h : joinDots segments = joinDots segments') :
    segments = segments' := by
  have hpieces : segments.map String.toList = segments'.map String.toList := by
    rw [← splitDots_joinDots hne hdots, ← splitDots_joinDots hne' hdots', h]
  exact List.map_inj_right (fun s t hst => String.toList_inj.mp hst) |>.mp hpieces

/-- A joined text holds the dots of its segments and one more for each segment that
follows another. -/
theorem count_joinDots (hne : segments ≠ []) :
    (joinDots segments).toList.count '.' + 1 =
      (segments.flatMap String.toList).count '.' + segments.length := by
  induction segments with
  | nil => exact absurd rfl hne
  | cons s rest ih =>
      cases rest with
      | nil => simp [joinDots]
      | cons next rest =>
          have hjoin : (joinDots (s :: next :: rest)).toList =
              s.toList ++ '.' :: (joinDots (next :: rest)).toList := by
            simp [joinDots, String.intercalate_cons_cons]
          have hrest := ih (List.cons_ne_nil _ _)
          rw [hjoin, List.count_append, List.count_cons_self, List.flatMap_cons,
            List.count_append, List.length_cons]
          omega

/-- Segments that hold no dots are told from a joined text of as many segments, since there
is no dot in the text but those between two segments. -/
theorem joinDots_inj_of_length (hne : segments ≠ [])
    (hdots : ∀ s ∈ segments, '.' ∉ s.toList) (hlength : segments.length = segments'.length)
    (h : joinDots segments = joinDots segments') :
    segments = segments' := by
  have hne' : segments' ≠ [] := by
    rwa [← List.length_pos_iff, ← hlength, List.length_pos_iff]
  have hnone : (segments.flatMap String.toList).count '.' = 0 := by
    rw [List.count_eq_zero, List.mem_flatMap]
    rintro ⟨s, hs, hdot⟩
    exact hdots s hs hdot
  have hnone' : (segments'.flatMap String.toList).count '.' = 0 := by
    have hcount := count_joinDots hne
    have hcount' := count_joinDots hne'
    rw [h] at hcount
    omega
  refine joinDots_inj hne hne' hdots ?_ h
  intro s hs hdot
  exact List.count_eq_zero.mp hnone' (List.mem_flatMap.mpr ⟨s, hs, hdot⟩)

end Dots

section Valid

variable {p q : Path}

theorem dot_notMem_of_validSegment {s : String} (h : validSegment s = true) :
    '.' ∉ s.toList := by
  rw [validSegment, Bool.and_eq_true, List.all_eq_true] at h
  intro hmem
  simpa using h.2 '.' hmem

theorem Valid.dots (h : p.Valid) : ∀ s ∈ p.segments, '.' ∉ s.toList :=
  fun s hs => dot_notMem_of_validSegment (h.2 s hs)

/-- A text is read as a path exactly when it is the text of this path and the path is
valid. -/
theorem parse_eq_ok_iff {text : String} : parse text = .ok p ↔ p.Valid ∧ p.render = text := by
  rw [parse, ofSegments_eq_ok_iff, and_comm]
  refine and_congr_right fun h => ⟨?_, ?_⟩
  · intro hsegments
    rw [render, hsegments, joinDots, ← String.toList_inj, String.toList_intercalate,
      List.map_map, splitDots_eq_splitOn]
    have hid : String.toList ∘ String.ofList = id := by
      funext cs
      exact String.toList_ofList
    rw [hid, List.map_id]
    exact List.intercalate_splitOn '.'
  · rintro rfl
    rw [render, splitDots_joinDots h.1 h.dots, List.map_map]
    exact (List.map_id'' (fun s => String.ofList_toList) p.segments).symm

/-- A valid path is read back from its text. -/
theorem parse_render (h : p.Valid) : parse p.render = .ok p :=
  parse_eq_ok_iff.mpr ⟨h, rfl⟩

/-- Valid paths that are written alike are equal. -/
theorem render_inj (hp : p.Valid) (hq : q.Valid) : p.render = q.render ↔ p = q := by
  constructor
  · intro h
    have hok : Except.ok p = (Except.ok q : Except ConstructionError Path) := by
      rw [← parse_render hp, ← parse_render hq, h]
    exact Except.ok.inj hok
  · rintro rfl
    rfl

end Valid

end Path
end Criteria
