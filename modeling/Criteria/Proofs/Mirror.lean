import Criteria.Assignment
import Criteria.Proofs.Acceptance
import Criteria.Proofs.DottedNames

/-!
# Registration mirrors the draft

A registered namespace has the levels of its draft, in order and under the same names, and at
each level the objects of the draft, with templates that differ from those of the draft in
nothing but the qualified name.  This name is made of the global names on the way from the
root, so no two objects share it, although an object may have the name of a namespace beside
it.  Since no segment has a dot, the dotted texts differ as well, and an assignment, which
keeps its entries under these texts, has no entry for two templates.

**Results.**
* `mirrors_of_place`: a level that has been placed mirrors its draft, and so do the levels
  below.
* `nodup_keys`, `valid_keys`: the qualified names in a level are different and valid.
* `register_mirrors`: what a registered namespace is, and that its qualified names are keys.
-/

namespace Criteria

open Outcome

mutual

/-- A level that stands under a path has the names of a draft, its objects with templates
qualified by their place, and below it the levels of the draft. -/
inductive Draft.Mirrors : List String → Draft → Namespace → Prop
  | level {path : List String} {d : Draft} {n : Namespace} (names : n.names = d.names)
      (place : n.path = path) (objects : n.objects = d.objects.map (Object.inPlace path))
      (spaces : Draft.MirrorsAll path d.spaces n.spaces) : Draft.Mirrors path d n

/-- The levels below a path are those of the drafts, in order. -/
inductive Draft.MirrorsAll : List String → List Draft → List Namespace → Prop
  | nil {path : List String} : Draft.MirrorsAll path [] []
  | cons {path : List String} {d : Draft} {ds : List Draft} {n : Namespace}
      {ns : List Namespace} (first : Draft.Mirrors (path ++ [d.names.global]) d n)
      (rest : Draft.MirrorsAll path ds ns) : Draft.MirrorsAll path (d :: ds) (n :: ns)

end

namespace Namespace

mutual

/-- The objects of a level and of all levels below. -/
def allObjects : Namespace → List Object
  | ⟨_, _, objects, spaces, _, _, _⟩ => objects ++ allObjectsBelow spaces

def allObjectsBelow : List Namespace → List Object
  | [] => []
  | n :: ns => allObjects n ++ allObjectsBelow ns

end

/-- The qualified names in a level and in all levels below. -/
def keys (n : Namespace) : List Path :=
  n.allObjects.map (·.symbol.qualifiedName)

theorem allObjectsBelow_eq_flatMap (ns : List Namespace) :
    allObjectsBelow ns = ns.flatMap allObjects := by
  induction ns with
  | nil => rfl
  | cons n ns ih => rw [allObjectsBelow, ih, List.flatMap_cons]

theorem allObjects_eq (n : Namespace) :
    n.allObjects = n.objects ++ n.spaces.flatMap allObjects := by
  cases n
  rw [allObjects, allObjectsBelow_eq_flatMap]

end Namespace

section Entries

namespace Assignment

variable {a : Assignment} {name : String}

/-- An entry under another name does not matter to a variable. -/
theorem lookup_setVariable_of_ne {σ : Type} {t : VariableTemplate} (v : Value)
    (h : t.qualifiedName.render ≠ name) :
    ((a.setVariable name v).context : Context σ).lookup t = a.context.lookup t := by
  have hvalue : (a.setVariable name v).value t = a.value t := by
    simp only [value, valueOf?_setVariable, if_neg h]
  exact congrArg ofExcept hvalue

/-- An entry under another name does not matter to a function. -/
theorem invoke_setFunction_of_ne {σ : Type} {t : FunctionTemplate Expr} (f : ValueFunction)
    (h : t.qualifiedName.render ≠ name) :
    ((a.setFunction name f).context : Context σ).invoke t = a.context.invoke t := by
  have hb : (t.qualifiedName.render == name) = false := by simp [h]
  have hresult (arguments : List Value) :
      (a.setFunction name f).result t arguments = a.result t arguments := by
    simp only [result, functionOf?, setFunction, List.lookup_cons, hb]
  exact funext fun arguments => congrArg ofExcept (hresult arguments)

end Assignment

namespace Symbol

/-- No entry of an assignment serves two templates: whatever is put under a name, what at
least one of them is answered does not change. -/
def ServedApart : Symbol → Symbol → Prop
  | .variable t, .variable u => ∀ (σ : Type) (a : Assignment) (name : String) (v : Value),
      ((a.setVariable name v).context : Context σ).lookup t = a.context.lookup t ∨
        ((a.setVariable name v).context : Context σ).lookup u = a.context.lookup u
  | .function t, .function u => ∀ (σ : Type) (a : Assignment) (name : String) (f : ValueFunction),
      ((a.setFunction name f).context : Context σ).invoke t = a.context.invoke t ∨
        ((a.setFunction name f).context : Context σ).invoke u = a.context.invoke u
  | _, _ => True

theorem servedApart_of_ne {s s' : Symbol}
    (h : s.qualifiedName.render ≠ s'.qualifiedName.render) : s.ServedApart s' := by
  match s, s' with
  | .variable t, .variable u =>
      intro σ a name v
      by_cases hname : t.qualifiedName.render = name
      · exact Or.inr (Assignment.lookup_setVariable_of_ne v (hname ▸ h.symm))
      · exact Or.inl (Assignment.lookup_setVariable_of_ne v hname)
  | .function t, .function u =>
      intro σ a name f
      by_cases hname : t.qualifiedName.render = name
      · exact Or.inr (Assignment.invoke_setFunction_of_ne f (hname ▸ h.symm))
      · exact Or.inl (Assignment.invoke_setFunction_of_ne f hname)
  | .variable _, .function _ => trivial
  | .function _, .variable _ => trivial

end Symbol

end Entries

namespace Draft

open Namespace

variable {l : Locales} {path : List String} {d : Draft} {n : Namespace}

section Levels

theorem mirrors_of_place (h : d.place l path = .ok n) : d.Mirrors path n := by
  induction d using space_induction generalizing path n with
  | level d ih =>
      have hplaced := placed_of_place h
      refine .level hplaced.names_eq hplaced.path_eq hplaced.objects_eq ?_
      have hspaces := hplaced.spaces_placed
      generalize n.spaces = ns at hspaces
      generalize d.spaces = ds at hspaces ih
      induction hspaces with
      | nil => exact .nil
      | cons hfirst _ ihrest =>
          refine .cons (ih _ List.mem_cons_self hfirst) (ihrest ?_)
          exact fun s hs => ih s (List.mem_cons_of_mem _ hs)

/-- The names in a level are those of its own objects, then those in the levels below. -/
theorem Placed.keys_eq (h : d.Placed l path n) :
    n.keys =
      (d.objects.map (·.names.global)).map (fun name => ⟨path ++ [name]⟩) ++
        n.spaces.flatMap keys := by
  have hobjects : n.objects.map (·.symbol.qualifiedName) =
      (d.objects.map (·.names.global)).map (fun name => ⟨path ++ [name]⟩) := by
    rw [h.objects_eq, List.map_map, List.map_map]
    exact List.map_congr_left fun o _ => Symbol.qualifiedName_moved _ o.symbol
  rw [keys, allObjects_eq, List.map_append, hobjects, List.map_flatMap]
  rfl

/-- A name in a level is that of one of its objects or stands in a level below. -/
theorem Placed.mem_keys_iff (h : d.Placed l path n) {q : Path} :
    q ∈ n.keys ↔ (∃ o ∈ d.objects, q = ⟨path ++ [o.names.global]⟩) ∨
      ∃ s ∈ d.spaces, ∃ m, s.place l (path ++ [s.names.global]) = .ok m ∧ q ∈ m.keys := by
  rw [h.keys_eq, List.mem_append, List.map_map, List.mem_map, List.mem_flatMap]
  simp only [mem_iff_of_forall₂ h.spaces_placed]
  constructor
  · rintro (⟨o, ho, rfl⟩ | ⟨m, ⟨s, hs, hm⟩, hq⟩)
    · exact Or.inl ⟨o, ho, rfl⟩
    · exact Or.inr ⟨s, hs, m, hm, hq⟩
  · rintro (⟨o, ho, rfl⟩ | ⟨s, hs, m, hm, hq⟩)
    · exact Or.inl ⟨o, ho, rfl⟩
    · exact Or.inr ⟨m, ⟨s, hs, hm⟩, hq⟩

/-- The names in a level begin with its path and go on. -/
theorem exists_of_mem_keys (h : d.place l path = .ok n) {q : Path} (hq : q ∈ n.keys) :
    ∃ name rest, q.segments = path ++ name :: rest := by
  induction d using space_induction generalizing path n with
  | level d ih =>
      rcases (placed_of_place h).mem_keys_iff.mp hq with ⟨o, -, rfl⟩ | ⟨s, hs, m, hm, hq⟩
      · exact ⟨o.names.global, [], rfl⟩
      · obtain ⟨name, rest, hsegments⟩ := ih s hs hm hq
        refine ⟨s.names.global, name :: rest, ?_⟩
        rw [hsegments, List.append_assoc, List.singleton_append]

theorem nodup_keys_of_spaces {ds : List Draft} {ns : List Namespace}
    (hplaced : List.Forall₂ (fun s m => s.place l (path ++ [s.names.global]) = .ok m) ds ns)
    (hnames : (ds.map (·.names.global)).Nodup)
    (ih : ∀ s ∈ ds, ∀ {path m}, s.place l path = .ok m → m.keys.Nodup) :
    (ns.flatMap keys).Nodup := by
  induction hplaced with
  | nil => exact List.nodup_nil
  | @cons s m ds ns hfirst hrest ihrest =>
      rw [List.map_cons, List.nodup_cons] at hnames
      rw [List.flatMap_cons, List.nodup_append]
      refine ⟨ih s List.mem_cons_self hfirst,
        ihrest hnames.2 fun t ht => ih t (List.mem_cons_of_mem s ht), ?_⟩
      -- The names in two levels differ where the names of the levels stand.
      rintro q hq _ hq' rfl
      obtain ⟨m', hm', hq'⟩ := List.mem_flatMap.mp hq'
      obtain ⟨t, ht, hplace⟩ := (mem_iff_of_forall₂ hrest).mp hm'
      obtain ⟨name, rest, hsegments⟩ := exists_of_mem_keys hfirst hq
      obtain ⟨name', rest', hsegments'⟩ := exists_of_mem_keys hplace hq'
      rw [hsegments, List.append_assoc, List.append_assoc, List.append_cancel_left_eq]
        at hsegments'
      exact hnames.1 ((List.cons.inj hsegments').1 ▸ List.mem_map_of_mem ht)

/-- The qualified names in a level and below are different. -/
theorem nodup_keys (h : d.place l path = .ok n) : n.keys.Nodup := by
  induction d using space_induction generalizing path n with
  | level d ih =>
      have hplaced := placed_of_place h
      rw [hplaced.keys_eq, List.nodup_append]
      refine ⟨?_, nodup_keys_of_spaces hplaced.spaces_placed hplaced.spaces_nodup ih, ?_⟩
      · refine hplaced.objects_nodup.map fun name name' hsame => ?_
        simpa using hsame
      -- The name of an object is shorter than all names in the levels below.
      · rintro q hq _ hq' rfl
        obtain ⟨name, -, rfl⟩ := List.mem_map.mp hq
        obtain ⟨m, hm, hq'⟩ := List.mem_flatMap.mp hq'
        obtain ⟨s, -, hplace⟩ := (mem_iff_of_forall₂ hplaced.spaces_placed).mp hm
        obtain ⟨name', rest, hsegments⟩ := exists_of_mem_keys hplace hq'
        have hlength := congrArg List.length hsegments
        simp only [List.length_append, List.length_cons] at hlength
        omega

/-- The qualified names in a level and below are valid paths. -/
theorem valid_keys {root : Draft} (hpath : ∀ s ∈ path, Path.validSegment s = true)
    (h : d.place root.locales path = .ok n) : ∀ q ∈ n.keys, q.Valid := by
  induction d using space_induction generalizing path n with
  | level d ih =>
      obtain ⟨hclear, -⟩ := (exists_place_iff_of_spaces hpath).mp ⟨n, h⟩
      have hextend {name : String} (hname : Path.validSegment name = true) :
          ∀ s ∈ path ++ [name], Path.validSegment s = true :=
        List.forall_mem_append.mpr ⟨hpath, List.forall_mem_singleton.mpr hname⟩
      intro q hq
      rcases (placed_of_place h).mem_keys_iff.mp hq with ⟨o, ho, rfl⟩ | ⟨s, hs, m, hm, hq⟩
      · exact ⟨by simp, hextend (hclear.objects.valid o.names (List.mem_map_of_mem ho))⟩
      · have hname := hclear.spaces.valid s.names (List.mem_map_of_mem hs)
        exact ih s hs (hextend hname) hm q hq

end Levels

/-- A registered namespace mirrors its draft from the root down.  The qualified names of all
its objects are different, and so are the texts of these names, so no entry of an assignment
serves two of its templates. -/
theorem register_mirrors (h : d.register = .ok n) :
    d.Mirrors (if d.names.global = "" then [] else [d.names.global]) n ∧
      (n.allObjects.map (·.symbol.qualifiedName)).Nodup ∧
      (n.allObjects.map (·.symbol.qualifiedName.render)).Nodup ∧
      n.allObjects.Pairwise fun o o' => o.symbol.ServedApart o'.symbol := by
  rw [register, bind_eq_ok_iff] at h
  obtain ⟨path, hroot, h⟩ := h
  have hpath : path = if d.names.global = "" then [] else [d.names.global] := by
    rcases rootPath_eq_ok_iff.mp hroot with ⟨hname, rfl⟩ | ⟨hvalid, rfl⟩
    · exact (if_pos hname).symm
    · have hname : d.names.global ≠ "" := by
        intro hname
        rw [hname] at hvalid
        exact absurd hvalid (by decide)
      exact (if_neg hname).symm
  have hrendered : (n.keys.map Path.render).Nodup := by
    refine (nodup_keys h).map_on fun q hq q' hq' hsame => ?_
    have hvalid := valid_keys (valid_of_rootPath hroot) h
    exact (Path.render_inj (hvalid q hq) (hvalid q' hq')).mp hsame
  rw [keys, List.map_map] at hrendered
  refine ⟨hpath ▸ mirrors_of_place h, nodup_keys h, hrendered, ?_⟩
  exact (List.pairwise_map.mp hrendered).imp fun hne => Symbol.servedApart_of_ne hne

/-- An object and a namespace of one name, with another object below. -/
theorem register_mirrors_user :
    let object (name : String) : Object := Object.ofSymbol (.variable ⟨⟨[name]⟩, none⟩)
    let d : Draft :=
      (Draft.root.bind (object "user")).nest ((Draft.named "user").bind (object "role"))
    ∃ n, d.register = .ok n ∧ d.Mirrors [] n ∧
      (n.allObjects.map (·.symbol.qualifiedName.render)).Nodup ∧
      n.allObjects.map (·.symbol.qualifiedName) = [⟨["user"]⟩, ⟨["user", "role"]⟩] := by
  intro object d
  have registers : ∃ n, d.register = .ok n ∧
      n.allObjects.map (·.symbol.qualifiedName) = [⟨["user"]⟩, ⟨["user", "role"]⟩] := by
    simp only [d, object]
    exact ⟨_, rfl, rfl⟩
  obtain ⟨n, hn, hkeys⟩ := registers
  obtain ⟨hmirrors, -, hrendered, -⟩ := register_mirrors hn
  exact ⟨n, hn, hmirrors, hrendered, hkeys⟩

end Draft
end Criteria
