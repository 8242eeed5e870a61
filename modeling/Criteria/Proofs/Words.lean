import Criteria.Decimal
import Criteria.Proofs.DottedNames
import Criteria.Text.Quote

/-!
# Words of a text

A text is made of words, which are dotted names and numbers, of quoted texts, and of signs.
Where a word or a quoted text ends can be seen from its own characters and the one behind
it, so two texts that begin with one of them and go on as texts do are equal only if the
words are and what stands behind them is.

**Results.**
* `span_append_inj`, `quoted_append_inj`: a word and a quoted text are told from what
  follows.
* `Path.Plain.render_inj`: names of ASCII identifiers are told from their texts.
* `Path.Plain.word`, `Decimal.word`: names and numbers are words, and their first character
  tells which.
-/

namespace Criteria

namespace Text

/-- A character that an ASCII identifier begins with. -/
def startsIdentifier (c : Char) : Bool :=
  c.isAlpha || c == '_'

/-- A text is an ASCII identifier: letters, digits and low lines, and no digit first. -/
def isIdentifier (s : String) : Bool :=
  match s.toList with
  | [] => false
  | c :: cs => startsIdentifier c && cs.all fun c => startsIdentifier c || c.isDigit

/-- A character that a number begins with. -/
def startsNumber (c : Char) : Bool :=
  c.isDigit || c == '-'

/-- A character of a dotted name or of a number. -/
def inWord (c : Char) : Bool :=
  startsIdentifier c || startsNumber c || c == '.'

section Spans

variable {rest rest' : List Char}

/-- A stretch of characters of one sort is told from what follows, if that begins with a
character of another sort. -/
theorem span_append_inj {p : Char → Bool} {w w' : List Char}
    (hw : ∀ c ∈ w, p c = true) (hw' : ∀ c ∈ w', p c = true)
    (hrest : ∀ c ∈ rest.head?, p c = false) (hrest' : ∀ c ∈ rest'.head?, p c = false)
    (h : w ++ rest = w' ++ rest') :
    w = w' ∧ rest = rest' := by
  induction w generalizing w' with
  | nil =>
      cases w' with
      | nil => exact ⟨rfl, h⟩
      | cons c cs =>
          rw [List.nil_append, List.cons_append] at h
          have hc := hrest c (by simp [h])
          rw [hw' c List.mem_cons_self] at hc
          cases hc
  | cons c cs ih =>
      cases w' with
      | nil =>
          rw [List.nil_append, List.cons_append] at h
          have hc := hrest' c (by simp [← h])
          rw [hw c List.mem_cons_self] at hc
          cases hc
      | cons d ds =>
          obtain ⟨rfl, htail⟩ := List.cons.inj h
          obtain ⟨rfl, hrests⟩ := ih (fun c hc => hw c (List.mem_cons_of_mem _ hc))
            (fun c hc => hw' c (List.mem_cons_of_mem _ hc)) htail
          exact ⟨rfl, hrests⟩

/-- Only what would end or spoil the quotes is escaped. -/
theorem escapeQuoted_eq (c : Char) :
    escapeQuoted c = ['\\', c] ∨ escapeQuoted c = [c] ∧ c ≠ '"' ∧ c ≠ '\\' := by
  rw [escapeQuoted]
  split
  · exact Or.inl rfl
  · next hplain => exact Or.inr ⟨rfl, not_or.mp hplain⟩

theorem escapeQuoted_append_inj {s t : List Char}
    (h : s.flatMap escapeQuoted ++ '"' :: rest = t.flatMap escapeQuoted ++ '"' :: rest') :
    s = t ∧ rest = rest' := by
  induction s generalizing t with
  | nil =>
      cases t with
      | nil => exact ⟨rfl, (List.cons.inj h).2⟩
      | cons d ds =>
          rcases escapeQuoted_eq d with hd | ⟨hd, hquote, -⟩
          · simp [hd] at h
          · simp [hd, hquote.symm] at h
  | cons c cs ih =>
      cases t with
      | nil =>
          rcases escapeQuoted_eq c with hc | ⟨hc, hquote, -⟩
          · simp [hc] at h
          · simp [hc, hquote] at h
      | cons d ds =>
          have htail : c = d ∧ cs.flatMap escapeQuoted ++ '"' :: rest =
              ds.flatMap escapeQuoted ++ '"' :: rest' := by
            rcases escapeQuoted_eq c with hc | ⟨hc, -, hplain⟩ <;>
              rcases escapeQuoted_eq d with hd | ⟨hd, -, hplain'⟩
            · simpa [hc, hd] using h
            · simp [hc, hd, hplain'.symm] at h
            · simp [hc, hd, hplain] at h
            · simpa [hc, hd] using h
          obtain ⟨rfl, htail⟩ := htail
          obtain ⟨rfl, hrests⟩ := ih htail
          exact ⟨rfl, hrests⟩

/-- A quoted text is told from what follows. -/
theorem quoted_append_inj {s t : String}
    (h : (quoted s).toList ++ rest = (quoted t).toList ++ rest') :
    s = t ∧ rest = rest' := by
  rw [quoted_toList, quoted_toList] at h
  simp only [List.cons_append, List.append_assoc, List.nil_append, List.cons.injEq,
    true_and] at h
  obtain ⟨hchars, hrests⟩ := escapeQuoted_append_inj h
  exact ⟨String.toList_inj.mp hchars, hrests⟩

end Spans

/-- A text is a word that begins with a character of one sort. -/
def IsWord (starts : Char → Bool) (cs : List Char) : Prop :=
  (∃ c ∈ cs.head?, starts c = true) ∧ ∀ c ∈ cs, inWord c = true

theorem isWord_of_isIdentifier {s : String} (h : isIdentifier s = true) :
    IsWord startsIdentifier s.toList ∧ '.' ∉ s.toList := by
  rw [isIdentifier] at h
  split at h
  · cases h
  · next c cs hs =>
      rw [Bool.and_eq_true, List.all_eq_true] at h
      obtain ⟨hc, hcs⟩ := h
      have hdot : startsIdentifier '.' = false := by decide
      refine ⟨⟨⟨c, by simp [hs], hc⟩, ?_⟩, ?_⟩
      · rw [hs]
        refine List.forall_mem_cons.mpr ⟨by simp [inWord, hc], fun d hd => ?_⟩
        rcases Bool.or_eq_true_iff.mp (hcs d hd) with hstart | hdigit
        · simp [inWord, hstart]
        · simp [inWord, startsNumber, hdigit]
      · rw [hs]
        intro hmem
        rcases List.mem_cons.mp hmem with rfl | hmem
        · rw [hdot] at hc
          cases hc
        · have := hcs '.' hmem
          rw [hdot] at this
          exact absurd this (by decide)

end Text

namespace Path

open Text

/-- A path has a segment, and all its segments are ASCII identifiers. -/
def Plain (p : Path) : Prop :=
  p.segments ≠ [] ∧ ∀ s ∈ p.segments, isIdentifier s = true

instance (p : Path) : Decidable p.Plain :=
  inferInstanceAs (Decidable (_ ∧ _))

variable {p q : Path}

theorem Plain.render_inj (hp : p.Plain) (hq : q.Plain)
    (h : p.render.toList = q.render.toList) : p = q := by
  have hsegments : p.segments = q.segments :=
    joinDots_inj hp.1 hq.1 (fun s hs => (isWord_of_isIdentifier (hp.2 s hs)).2)
      (fun s hs => (isWord_of_isIdentifier (hq.2 s hs)).2) (String.toList_inj.mp h)
  cases p
  cases q
  exact congrArg Path.mk hsegments

theorem isWord_joinDots {segments : List String} (hne : segments ≠ [])
    (hsegments : ∀ s ∈ segments, isIdentifier s = true) :
    IsWord startsIdentifier (joinDots segments).toList := by
  induction segments with
  | nil => exact absurd rfl hne
  | cons s rest ih =>
      have hs := (isWord_of_isIdentifier (hsegments s List.mem_cons_self)).1
      cases rest with
      | nil => simpa [joinDots] using hs
      | cons next rest =>
          have hrest := ih (List.cons_ne_nil _ _)
            fun t ht => hsegments t (List.mem_cons_of_mem s ht)
          have htext : (joinDots (s :: next :: rest)).toList =
              s.toList ++ '.' :: (joinDots (next :: rest)).toList := by
            simp [joinDots]
          obtain ⟨c, hc, hstarts⟩ := hs.1
          rw [htext]
          refine ⟨⟨c, ?_, hstarts⟩, ?_⟩
          · rw [List.head?_append, Option.mem_def.mp hc]
            rfl
          · refine List.forall_mem_append.mpr ⟨hs.2, ?_⟩
            exact List.forall_mem_cons.mpr ⟨by decide, hrest.2⟩

/-- The text of a path of identifiers is a word that begins as an identifier does. -/
theorem Plain.word (h : p.Plain) : IsWord startsIdentifier p.render.toList :=
  isWord_joinDots h.1 h.2

end Path

namespace Decimal

open Text

variable (d : Decimal)

theorem isDigit_of_mem_digits {c : Char} (h : c ∈ d.digits) : c.isDigit = true := by
  rcases List.mem_append.mp h with hzero | hdigit
  · rw [List.eq_of_mem_replicate hzero]
    decide
  · exact Nat.isDigit_of_mem_toDigits (by decide) (by decide) hdigit

theorem scale_lt_length_digits : d.scale < d.digits.length := by
  rw [digits, List.length_append, List.length_replicate]
  omega

/-- A written number is a word that begins as a number does. -/
theorem word : IsWord startsNumber d.render.toList := by
  have hinWord : ∀ c ∈ d.digits, inWord c = true := by
    intro c hc
    simp [inWord, startsNumber, d.isDigit_of_mem_digits hc]
  have hwhole : ∃ c ∈ d.wholeDigits.head?, startsNumber c = true := by
    have hlength := d.scale_lt_length_digits
    cases hdigits : d.wholeDigits with
    | nil =>
        rw [wholeDigits, List.take_eq_nil_iff] at hdigits
        rcases hdigits with hzero | hnil
        · omega
        · simp [hnil] at hlength
    | cons c cs =>
        have hmem : c ∈ d.digits := List.mem_of_mem_take (hdigits ▸ List.mem_cons_self)
        exact ⟨c, rfl, by simp [startsNumber, d.isDigit_of_mem_digits hmem]⟩
  have htext : d.render.toList = (if d.mantissa < 0 then ['-'] else []) ++
      (d.wholeDigits ++ if d.scale = 0 then [] else '.' :: d.fractionDigits) := by
    rw [render, String.toList_ofList, List.append_assoc]
  rw [htext]
  constructor
  · split
    · exact ⟨'-', rfl, by decide⟩
    · obtain ⟨c, hc, hstarts⟩ := hwhole
      refine ⟨c, ?_, hstarts⟩
      rw [List.nil_append, List.head?_append, Option.mem_def.mp hc]
      rfl
  · refine List.forall_mem_append.mpr ⟨?_, List.forall_mem_append.mpr ⟨?_, ?_⟩⟩
    · split
      · exact List.forall_mem_singleton.mpr (by decide)
      · simp
    · exact fun c hc => hinWord c (List.mem_of_mem_take hc)
    · split
      · simp
      · refine List.forall_mem_cons.mpr ⟨by decide, ?_⟩
        exact fun c hc => hinWord c (List.mem_of_mem_drop hc)

end Decimal

end Criteria
