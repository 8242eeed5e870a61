import Criteria.Proofs.Congruence
import Criteria.Proofs.Distinct

/-!
# Well-formed values

A set is well formed when it has distinct members, none of them a set.  Sets that an
evaluation builds are; an application may hand over others.  Among well-formed values
equality is an equivalence, although the comparison of two sets asks only for their lengths
and for one direction of the cover, and no operator can tell equal ones apart.

**Results.**
* `alike_set_iff`: well-formed sets are equal exactly when they cover each other.
* `Alike.symm`, `Alike.trans`: equality of well-formed values is an equivalence.
* `ofMembers_alike`: lists that cover each other make equal sets.
* `congruence_alike`: no operator can tell equal well-formed values apart.
-/

namespace Criteria

section Numbers

namespace Decimal

variable {a a' b b' : Decimal}

/-- Equal numbers are the same multiples when each is brought to the scales of the other. -/
theorem scaled_mul (ha : (a == a') = true) (b b' : Decimal) :
    scaled a b * (Int.pow 10 a'.scale * Int.pow 10 b'.scale) =
      scaled a' b' * (Int.pow 10 a.scale * Int.pow 10 b.scale) := by
  rw [beq_iff, scaled, scaled] at ha
  rw [scaled, scaled]
  calc
    a.mantissa * Int.pow 10 b.scale * (Int.pow 10 a'.scale * Int.pow 10 b'.scale)
        = a.mantissa * Int.pow 10 a'.scale * (Int.pow 10 b.scale * Int.pow 10 b'.scale) := by
          ring
    _ = a'.mantissa * Int.pow 10 a.scale * (Int.pow 10 b.scale * Int.pow 10 b'.scale) := by
          rw [ha]
    _ = a'.mantissa * Int.pow 10 b'.scale * (Int.pow 10 a.scale * Int.pow 10 b.scale) := by
          ring

theorem pow_scale_pos (d d' : Decimal) :
    0 < Int.pow 10 d.scale * Int.pow 10 d'.scale :=
  Int.mul_pos (Int.pow_pos (by decide)) (Int.pow_pos (by decide))

theorem scaled_lt_congr (ha : (a == a') = true) (hb : (b == b') = true) :
    scaled a b < scaled b a ↔ scaled a' b' < scaled b' a' := by
  have hleft := scaled_mul ha b b'
  have hright := scaled_mul hb a a'
  rw [mul_comm (Int.pow 10 b'.scale), mul_comm (Int.pow 10 b.scale)] at hright
  rw [← Int.mul_lt_mul_right (pow_scale_pos a' b'), hleft, hright,
    Int.mul_lt_mul_right (pow_scale_pos a b)]

theorem below_congr (ha : (a == a') = true) (hb : (b == b') = true) :
    a.below b = a'.below b' :=
  decide_eq_decide.mpr (scaled_lt_congr ha hb)

theorem atMost_congr (ha : (a == a') = true) (hb : (b == b') = true) :
    a.atMost b = a'.atMost b' := by
  rw [atMost, atMost, decide_eq_decide, ← Int.not_lt, scaled_lt_congr hb ha, Int.not_lt]

end Decimal

end Numbers

namespace Value

/-- A set has distinct members, none of them a set; other values ask for nothing. -/
def WellFormed : Value → Prop
  | .set members => Distinct.Apart members ∧ ∀ m ∈ members, m.isSet = false
  | _ => True

section Scalars

variable {a b c v : Value}

theorem kind_eq_of_beq (h : (a == b) = true) : a.kind = b.kind := by
  by_contra hne
  rw [beq_of_kind_ne hne] at h
  cases h

theorem isSet_eq_of_beq (h : (a == b) = true) : a.isSet = b.isSet := by
  have hkind := kind_eq_of_beq h
  cases a <;> cases b <;> first | rfl | cases hkind

theorem boolean_beq_iff {x : Bool} : (boolean x == v) = true ↔ v = boolean x := by
  cases v with
  | boolean y =>
      show (x == y) = true ↔ _
      rw [beq_iff_eq, boolean.injEq, eq_comm]
  | number d => exact ⟨nofun, nofun⟩
  | string s => exact ⟨nofun, nofun⟩
  | set members => exact ⟨nofun, nofun⟩

theorem string_beq_iff {s : String} : (string s == v) = true ↔ v = string s := by
  cases v with
  | string s' =>
      show (s == s') = true ↔ _
      rw [beq_iff_eq, string.injEq, eq_comm]
  | boolean x => exact ⟨nofun, nofun⟩
  | number d => exact ⟨nofun, nofun⟩
  | set members => exact ⟨nofun, nofun⟩

theorem number_beq_iff {d : Decimal} :
    (number d == v) = true ↔ ∃ d', v = number d' ∧ (d == d') = true := by
  cases v with
  | number d' =>
      show (d == d') = true ↔ _
      simp
  | boolean x => exact ⟨nofun, nofun⟩
  | string s => exact ⟨nofun, nofun⟩
  | set members => exact ⟨nofun, nofun⟩

theorem beq_set_iff {members : List Value} :
    (set members == v) = true ↔
      ∃ others, v = set others ∧ members.length = others.length ∧
        ∀ m ∈ members, ∃ o ∈ others, (o == m) = true := by
  cases v with
  | set others =>
      rw [beq_set, Bool.and_eq_true, beq_iff_eq, List.all_eq_true]
      simp [contains]
  | boolean x => exact ⟨nofun, nofun⟩
  | string s => exact ⟨nofun, nofun⟩
  | number d => exact ⟨nofun, nofun⟩

theorem wellFormed_of_not_set (ha : a.isSet = false) : a.WellFormed := by
  cases a with
  | set members => cases ha
  | boolean b => trivial
  | number d => trivial
  | string s => trivial

theorem beq_refl_of_not_set (ha : a.isSet = false) : (a == a) = true := by
  cases a with
  | set members => cases ha
  | boolean b => exact boolean_beq_iff.mpr rfl
  | number d => exact number_beq_iff.mpr ⟨d, rfl, d.beq_refl⟩
  | string s => exact string_beq_iff.mpr rfl

theorem beq_symm_of_not_set (ha : a.isSet = false) (h : (a == b) = true) :
    (b == a) = true := by
  cases a with
  | set members => cases ha
  | boolean x =>
      obtain rfl := boolean_beq_iff.mp h
      exact h
  | number d =>
      obtain ⟨d', rfl, hd⟩ := number_beq_iff.mp h
      exact number_beq_iff.mpr ⟨d, rfl, Decimal.beq_comm d d' ▸ hd⟩
  | string s =>
      obtain rfl := string_beq_iff.mp h
      exact h

theorem beq_trans_of_not_set (ha : a.isSet = false) (h : (a == b) = true)
    (h' : (b == c) = true) : (a == c) = true := by
  cases a with
  | set members => cases ha
  | boolean x =>
      obtain rfl := boolean_beq_iff.mp h
      exact h'
  | number d =>
      obtain ⟨d', rfl, hd⟩ := number_beq_iff.mp h
      obtain ⟨d'', rfl, hd'⟩ := number_beq_iff.mp h'
      exact number_beq_iff.mpr ⟨d'', rfl, Decimal.beq_trans hd hd'⟩
  | string s =>
      obtain rfl := string_beq_iff.mp h
      exact h'

end Scalars

/-- Two well-formed values are equal. -/
structure Alike (v w : Value) : Prop where
  left : v.WellFormed
  right : w.WellFormed
  beq : (v == w) = true

section Sets

variable {members others : List Value}

/-- No two members of a well-formed set equal the same value. -/
theorem WellFormed.separated (h : (set members).WellFormed) (others : List Value) :
    members.Pairwise fun m n =>
      ∀ o ∈ others, (m == o) = true → ¬ (n == o) = true := by
  refine List.Pairwise.imp_of_mem ?_ h.1
  intro m n hm hn hne o _ hmo hno
  have hon := beq_symm_of_not_set (h.2 n hn) hno
  exact Bool.eq_false_iff.mp hne (beq_trans_of_not_set (h.2 m hm) hmo hon)

/-- Well-formed sets are equal when they cover each other. -/
theorem alike_set_iff :
    Alike (set members) (set others) ↔
      ((set members).WellFormed ∧ (set others).WellFormed) ∧
        (∀ m ∈ members, ∃ o ∈ others, (m == o) = true) ∧
          ∀ o ∈ others, ∃ m ∈ members, (m == o) = true := by
  constructor
  · rintro ⟨hleft, hright, h⟩
    obtain ⟨others', heq, hlength, hcover⟩ := beq_set_iff.mp h
    cases heq
    have hcover' : ∀ m ∈ members, ∃ o ∈ others, (m == o) = true := by
      intro m hm
      obtain ⟨o, ho, hom⟩ := hcover m hm
      exact ⟨o, ho, beq_symm_of_not_set (hright.2 o ho) hom⟩
    exact ⟨⟨hleft, hright⟩, hcover',
      Distinct.exists_of_mem_right hlength.ge hcover' (hleft.separated others)⟩
  · rintro ⟨⟨hleft, hright⟩, hcover, hcover'⟩
    have hback : ∀ o ∈ others, ∃ m ∈ members, (o == m) = true := by
      intro o ho
      obtain ⟨m, hm, hmo⟩ := hcover' o ho
      exact ⟨m, hm, beq_symm_of_not_set (hleft.2 m hm) hmo⟩
    have hle := Distinct.length_le_of_cover hcover (hleft.separated others)
    have hge := Distinct.length_le_of_cover hback (hright.separated members)
    refine ⟨hleft, hright, beq_set_iff.mpr ⟨others, rfl, Nat.le_antisymm hle hge, ?_⟩⟩
    intro m hm
    obtain ⟨o, ho, hmo⟩ := hcover m hm
    exact ⟨o, ho, beq_symm_of_not_set (hleft.2 m hm) hmo⟩

end Sets

section Equivalence

variable {u v w : Value}

theorem Alike.of_not_set (hv : v.isSet = false) (h : (v == w) = true) : Alike v w :=
  ⟨wellFormed_of_not_set hv, wellFormed_of_not_set (isSet_eq_of_beq h ▸ hv), h⟩

theorem WellFormed.alike (h : v.WellFormed) : Alike v v := by
  cases hv : v.isSet with
  | false => exact .of_not_set hv (beq_refl_of_not_set hv)
  | true =>
      cases v with
      | set members =>
          have hcover : ∀ m ∈ members, ∃ o ∈ members, (m == o) = true := fun m hm =>
            ⟨m, hm, beq_refl_of_not_set (h.2 m hm)⟩
          have hcover' : ∀ o ∈ members, ∃ m ∈ members, (m == o) = true := fun m hm =>
            ⟨m, hm, beq_refl_of_not_set (h.2 m hm)⟩
          exact alike_set_iff.mpr ⟨⟨h, h⟩, hcover, hcover'⟩
      | _ => cases hv

theorem Alike.symm (h : Alike v w) : Alike w v := by
  cases hv : v.isSet with
  | false => exact ⟨h.right, h.left, beq_symm_of_not_set hv h.beq⟩
  | true =>
      cases v with
      | set members =>
          obtain ⟨others, rfl, -⟩ := beq_set_iff.mp h.beq
          obtain ⟨⟨hleft, hright⟩, hcover, hcover'⟩ := alike_set_iff.mp h
          refine alike_set_iff.mpr ⟨⟨hright, hleft⟩, ?_, ?_⟩
          · intro o ho
            obtain ⟨m, hm, hmo⟩ := hcover' o ho
            exact ⟨m, hm, beq_symm_of_not_set (hleft.2 m hm) hmo⟩
          · intro m hm
            obtain ⟨o, ho, hmo⟩ := hcover m hm
            exact ⟨o, ho, beq_symm_of_not_set (hleft.2 m hm) hmo⟩
      | _ => cases hv

theorem Alike.trans (h : Alike u v) (h' : Alike v w) : Alike u w := by
  cases hu : u.isSet with
  | false => exact ⟨h.left, h'.right, beq_trans_of_not_set hu h.beq h'.beq⟩
  | true =>
      cases u with
      | set members =>
          obtain ⟨others, rfl, -⟩ := beq_set_iff.mp h.beq
          obtain ⟨more, rfl, -⟩ := beq_set_iff.mp h'.beq
          obtain ⟨⟨hleft, -⟩, hcover, hcover'⟩ := alike_set_iff.mp h
          obtain ⟨⟨-, hright⟩, hmore, hmore'⟩ := alike_set_iff.mp h'
          refine alike_set_iff.mpr ⟨⟨hleft, hright⟩, ?_, ?_⟩
          · intro m hm
            obtain ⟨o, ho, hmo⟩ := hcover m hm
            obtain ⟨n, hn, hon⟩ := hmore o ho
            exact ⟨n, hn, beq_trans_of_not_set (hleft.2 m hm) hmo hon⟩
          · intro n hn
            obtain ⟨o, ho, hon⟩ := hmore' n hn
            obtain ⟨m, hm, hmo⟩ := hcover' o ho
            exact ⟨m, hm, beq_trans_of_not_set (hleft.2 m hm) hmo hon⟩
      | _ => cases hu

end Equivalence

section Building

variable {vs ws kept : List Value} {v : Value}

theorem ofMembers_eq_ok_iff :
    ofMembers vs = .ok v ↔ ∃ kept, Distinct.collect isSet vs = .ok kept ∧ v = set kept := by
  rw [ofMembers]
  cases Distinct.collect isSet vs with
  | error m => simp [Except.map]
  | ok kept => simp [Except.map, eq_comm]

/-- A set that is built from members is well formed. -/
theorem wellFormed_ofMembers (h : ofMembers vs = .ok v) : v.WellFormed := by
  obtain ⟨kept, hkept, rfl⟩ := ofMembers_eq_ok_iff.mp h
  exact ⟨Distinct.apart_of_collect hkept, Distinct.refused_of_mem_collect hkept⟩

/-- Each member of a list that is collected equals one that is kept. -/
theorem exists_kept (h : Distinct.collect isSet vs = .ok kept) :
    ∀ v ∈ vs, ∃ k ∈ kept, (k == v) = true := by
  intro v hv
  obtain ⟨k, hk, rfl | hkv⟩ := Distinct.covered_of_collect h v hv
  · exact ⟨k, hk, beq_refl_of_not_set (Distinct.refused_of_mem_collect h k hk)⟩
  · exact ⟨k, hk, hkv⟩

/-- Lists that cover each other make equal sets, if they make sets at all. -/
theorem ofMembers_alike (hvw : ∀ v ∈ vs, ∃ w ∈ ws, Alike v w)
    (hwv : ∀ w ∈ ws, ∃ v ∈ vs, Alike v w) (h : ofMembers vs = .ok v) :
    ∃ w, ofMembers ws = .ok w ∧ Alike v w := by
  obtain ⟨kept, hkept, rfl⟩ := ofMembers_eq_ok_iff.mp h
  have hvs : ∀ v ∈ vs, v.isSet = false :=
    (Distinct.collect_ok_iff isSet vs).mp ⟨kept, hkept⟩
  have hws : ∀ w ∈ ws, w.isSet = false := by
    intro w hw
    obtain ⟨v, hv, hvw⟩ := hwv w hw
    rw [← isSet_eq_of_beq hvw.beq]
    exact hvs v hv
  obtain ⟨kept', hkept'⟩ := (Distinct.collect_ok_iff isSet ws).mpr hws
  have hw := ofMembers_eq_ok_iff.mpr ⟨kept', hkept', rfl⟩
  have hmem := (Distinct.collect_sublist isSet hkept).subset
  have hmem' := (Distinct.collect_sublist isSet hkept').subset
  refine ⟨set kept', hw, alike_set_iff.mpr
    ⟨⟨wellFormed_ofMembers h, wellFormed_ofMembers hw⟩, ?_, ?_⟩⟩
  · intro k hk
    obtain ⟨w, hw, hkw⟩ := hvw k (hmem hk)
    obtain ⟨k', hk', hk'w⟩ := exists_kept hkept' w hw
    have hwk' := beq_symm_of_not_set (hws k' (hmem' hk')) hk'w
    exact ⟨k', hk', beq_trans_of_not_set (hvs k (hmem hk)) hkw.beq hwk'⟩
  · intro k' hk'
    obtain ⟨v, hv, hvk'⟩ := hwv k' (hmem' hk')
    obtain ⟨k, hk, hkv⟩ := exists_kept hkept v hv
    exact ⟨k, hk, beq_trans_of_not_set (hvs k (hmem hk)) hkv hvk'.beq⟩

end Building

section Operators

variable {l l' r r' : Value}

theorem beq_congr (hl : Alike l l') (hr : Alike r r') : (l == r) = (l' == r') := by
  rw [Bool.eq_iff_iff]
  constructor
  · intro h
    exact (hl.symm.trans (.trans ⟨hl.left, hr.left, h⟩ hr)).beq
  · intro h
    exact (hl.trans (.trans ⟨hl.right, hr.right, h⟩ hr.symm)).beq

/-- A value that is no set is a member of equal sets or of none. -/
theorem contains_of_alike (hl : Alike l l') (hr : Alike r r') (h : r.contains l = true) :
    r'.contains l' = true := by
  cases r with
  | set members =>
      obtain ⟨others, rfl, -⟩ := beq_set_iff.mp hr.beq
      obtain ⟨⟨hleft, -⟩, hcover, -⟩ := alike_set_iff.mp hr
      obtain ⟨m, hm, hml⟩ := List.any_eq_true.mp h
      obtain ⟨o, ho, hmo⟩ := hcover m hm
      have hml' := beq_trans_of_not_set (hleft.2 m hm) hml hl.beq
      have hom := beq_symm_of_not_set (hleft.2 m hm) hmo
      have hnot : o.isSet = false := isSet_eq_of_beq hmo ▸ hleft.2 m hm
      exact List.any_eq_true.mpr ⟨o, ho, beq_trans_of_not_set hnot hom hml'⟩
  | boolean b => cases h
  | number d => cases h
  | string s => cases h

theorem contains_congr (hl : Alike l l') (hr : Alike r r') :
    r.contains l = r'.contains l' := by
  rw [Bool.eq_iff_iff]
  exact ⟨contains_of_alike hl hr, contains_of_alike hl.symm hr.symm⟩

/-- One set lies in another, or an equal one in an equal other one. -/
theorem enclosed_of_alike {members others members' others' : List Value}
    (hl : Alike (set members) (set members')) (hr : Alike (set others) (set others'))
    (h : members.all (set others).contains = true) :
    members'.all (set others').contains = true := by
  obtain ⟨⟨hleft, -⟩, -, hcover⟩ := alike_set_iff.mp hl
  rw [List.all_eq_true] at h ⊢
  intro m' hm'
  obtain ⟨m, hm, hmm'⟩ := hcover m' hm'
  exact contains_of_alike (.of_not_set (hleft.2 m hm) hmm') hr (h m hm)

theorem relation_congr {op : BinaryOp} {relation : Decimal → Decimal → Bool}
    (hrelation : Operation.relation? op = some relation) {a a' b b' : Decimal}
    (ha : (a == a') = true) (hb : (b == b') = true) : relation a b = relation a' b' := by
  cases op <;> cases hrelation
  · exact Decimal.below_congr ha hb
  · exact Decimal.below_congr hb ha
  · exact Decimal.atMost_congr ha hb
  · exact Decimal.atMost_congr hb ha

end Operators

end Value

namespace Operation

variable {node node' : Expr} {op : BinaryOp} {l l' r r' : Value} {b : Bool}

theorem connect_of_alike {f : Bool → Bool → Bool} (hl : l.Alike l') (hr : r.Alike r')
    (h : connect node op f l r = .ok b) : connect node' op f l' r' = .ok b := by
  obtain ⟨x, y, rfl, rfl, hb⟩ := connect_eq_ok_iff.mp h
  exact connect_eq_ok_iff.mpr
    ⟨x, y, Value.boolean_beq_iff.mp hl.beq, Value.boolean_beq_iff.mp hr.beq, hb⟩

theorem relate_of_alike (hl : l.Alike l') (hr : r.Alike r')
    (h : relate node op l r = .ok b) : relate node' op l' r' = .ok b := by
  obtain ⟨x, y, relation, rfl, rfl, hrelation, hb⟩ := relate_eq_ok_iff.mp h
  obtain ⟨x', rfl, hx⟩ := Value.number_beq_iff.mp hl.beq
  obtain ⟨y', rfl, hy⟩ := Value.number_beq_iff.mp hr.beq
  rw [Value.relation_congr hrelation hx hy] at hb
  exact relate_eq_ok_iff.mpr ⟨x', y', relation, rfl, rfl, hrelation, hb⟩

theorem belong_of_alike (hl : l.Alike l') (hr : r.Alike r')
    (h : belong node l r = .ok b) : belong node' l' r' = .ok b := by
  obtain ⟨hlset, hrset, hb⟩ := belong_eq_ok_iff.mp h
  rw [Value.isSet_eq_of_beq hl.beq] at hlset
  rw [Value.isSet_eq_of_beq hr.beq] at hrset
  rw [Value.contains_congr hl hr] at hb
  exact belong_eq_ok_iff.mpr ⟨hlset, hrset, hb⟩

theorem enclose_of_alike (hl : l.Alike l') (hr : r.Alike r')
    (h : enclose node l r = .ok b) : enclose node' l' r' = .ok b := by
  obtain ⟨members, others, rfl, rfl, hb⟩ := enclose_eq_ok_iff.mp h
  obtain ⟨members', rfl, -⟩ := Value.beq_set_iff.mp hl.beq
  obtain ⟨others', rfl, -⟩ := Value.beq_set_iff.mp hr.beq
  refine enclose_eq_ok_iff.mpr ⟨members', others', rfl, rfl, ?_⟩
  rw [← hb, Bool.eq_iff_iff]
  exact ⟨Value.enclosed_of_alike hl.symm hr.symm, Value.enclosed_of_alike hl hr⟩

theorem apply_of_alike (hl : l.Alike l') (hr : r.Alike r')
    (h : apply node op l r = .ok b) : apply node' op l' r' = .ok b := by
  cases op with
  | equal =>
      rw [apply_equal] at h ⊢
      rw [← Value.beq_congr hl hr]
      exact h
  | notEqual =>
      rw [apply_notEqual, apply_equal] at h ⊢
      rw [← Value.beq_congr hl hr]
      exact h
  | and => exact connect_of_alike hl hr h
  | or => exact connect_of_alike hl hr h
  | xor => exact connect_of_alike hl hr h
  | belongsTo => exact belong_of_alike hl hr h
  | isSubset => exact enclose_of_alike hl hr h
  | _ => exact relate_of_alike hl hr h

end Operation

/-- No operator can tell equal well-formed values apart. -/
theorem congruence_alike : Congruence Value.Alike where
  kind_eq h := Value.kind_eq_of_beq h.beq
  boolean_iff := by
    intro b w
    constructor
    · intro h
      exact Value.boolean_beq_iff.mp h.beq
    · rintro rfl
      exact .of_not_set rfl (Value.boolean_beq_iff.mpr rfl)
  apply hl hr := Operation.apply_of_alike hl hr

end Criteria
