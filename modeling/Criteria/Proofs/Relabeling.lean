import Criteria.Proofs.Congruence
import Criteria.Proofs.Members
import Mathlib.Data.Set.Function

/-!
# Trees under other names

A variable and a call record the path that they were bound from, and a placeholder the name
that it was written with.  A relabeling puts other names in the place of these and leaves
the rest of a tree as it is, the templates included.  No value depends on a recorded name,
but the comparison of trees does: a relabeling keeps different trees different only if it
can be taken back.  Two trees differ in nothing but the recorded paths when they are one
tree without them.

**Results.**
* `exists_undo`: a relabeling that gives different names different names can be taken back.
* `same_relabel`: equal trees stay equal.
* `beq_relabel`: different trees stay different under a relabeling that can be taken back.
* `built_relabel`: so the set literals of a tree stay free of equal members.
* `mirrors_relabel`: no value depends on the recorded names.
* `evaluateValue_iff_of_pathless`: trees that differ only in the recorded paths evaluate
  alike.
-/

namespace Criteria

open Outcome Evaluation

/-- New names for recorded paths, and for the scope and the name of placeholders. -/
structure Relabeling where
  path : Path → Path
  name : List String × Path → List String × Path

namespace Relabeling

/-- The names that the first relabeling gives, relabeled by the second. -/
def andThen (ρ ρ' : Relabeling) : Relabeling :=
  ⟨ρ'.path ∘ ρ.path, ρ'.name ∘ ρ.name⟩

/-- The relabeling leaves the name that a node records as it is. -/
def Fixes (ρ : Relabeling) : Expr → Prop
  | .placeholder p => ρ.name (p.scope, p.name) = (p.scope, p.name)
  | .variable path _ => ρ.path path = path
  | .call path _ _ => ρ.path path = path
  | _ => True

end Relabeling

namespace Expr

/-- The path that a node was bound from. -/
def path? : Expr → Option Path
  | .variable path _ => some path
  | .call path _ _ => some path
  | _ => none

/-- The paths that the nodes of a tree were bound from. -/
def recorded (e : Expr) : List Path :=
  e.subtrees.filterMap path?

mutual

/-- The tree with other names. -/
def relabel (ρ : Relabeling) : Expr → Expr
  | .constant (.set members) => .constant (.set (relabelAll ρ members))
  | .constant (.string s) => .constant (.string s)
  | .constant (.number d) => .constant (.number d)
  | .placeholder ⟨scope, name, none⟩ =>
      .placeholder ⟨(ρ.name (scope, name)).1, (ρ.name (scope, name)).2, none⟩
  | .placeholder ⟨scope, name, some arguments⟩ =>
      .placeholder ⟨(ρ.name (scope, name)).1, (ρ.name (scope, name)).2,
        some (relabelAll ρ arguments)⟩
  | .variable path template => .variable (ρ.path path) template
  | .call path template arguments =>
      .call (ρ.path path) template (relabelAll ρ arguments)
  | .not operand => .not (relabel ρ operand)
  | .binary op left right => .binary op (relabel ρ left) (relabel ρ right)

/-- The trees of a list with other names. -/
def relabelAll (ρ : Relabeling) : List Expr → List Expr
  | [] => []
  | e :: es => relabel ρ e :: relabelAll ρ es

end

variable {ρ ρ' : Relabeling} {e x y : Expr}

section Walk

@[simp]
theorem relabelAll_eq_map (ρ : Relabeling) (es : List Expr) :
    relabelAll ρ es = es.map (relabel ρ) := by
  induction es with
  | nil => rfl
  | cons e es ih => rw [relabelAll, ih, List.map_cons]

theorem isSet_relabel (ρ : Relabeling) (e : Expr) : (e.relabel ρ).isSet = e.isSet := by
  cases e with
  | constant c => cases c <;> rfl
  | placeholder p => obtain ⟨_, _, _ | _⟩ := p <;> rfl
  | _ => rfl

/-- The placeholder under its other name, and its arguments with theirs. -/
def relabelPlaceholder (ρ : Relabeling) (p : Placeholder Expr) : Placeholder Expr :=
  ⟨(ρ.name (p.scope, p.name)).1, (ρ.name (p.scope, p.name)).2,
    p.arguments.map (List.map (relabel ρ))⟩

theorem relabel_placeholder (ρ : Relabeling) (p : Placeholder Expr) :
    (placeholder p).relabel ρ = placeholder (relabelPlaceholder ρ p) := by
  obtain ⟨scope, name, _ | arguments⟩ := p
  · rfl
  · simp [relabel, relabelPlaceholder]

theorem argumentList_relabelPlaceholder (ρ : Relabeling) (p : Placeholder Expr) :
    (relabelPlaceholder ρ p).argumentList = p.argumentList.map (relabel ρ) := by
  obtain ⟨scope, name, _ | arguments⟩ := p <;> rfl

/-- Of two relabelings in turn the second finds the names that the first gives. -/
theorem relabel_relabel (ρ ρ' : Relabeling) (e : Expr) :
    (e.relabel ρ).relabel ρ' = e.relabel (ρ.andThen ρ') := by
  induction e using child_induction with
  | node e ih =>
      have hall {es : List Expr} (hes : ∀ c ∈ es, c ∈ e.children) :
          es.map (relabel ρ' ∘ relabel ρ) = es.map (relabel (ρ.andThen ρ')) :=
        List.map_congr_left fun c hc => ih c (hes c hc)
      match e with
      | .constant (.set members) => simp [relabel, hall fun c (hc : c ∈ members) => hc]
      | .constant (.string s) => rfl
      | .constant (.number d) => rfl
      | .placeholder ⟨scope, name, none⟩ => rfl
      | .placeholder ⟨scope, name, some arguments⟩ =>
          simp [relabel, hall fun c (hc : c ∈ arguments) => hc, Relabeling.andThen]
      | .variable path template => rfl
      | .call path template arguments =>
          simp [relabel, hall fun c (hc : c ∈ arguments) => hc, Relabeling.andThen]
      | .not operand => simp [relabel, ih operand (by simp [children])]
      | .binary op left right =>
          simp [relabel, ih left (by simp [children]), ih right (by simp [children])]

/-- A relabeling that leaves every recorded name as it is leaves the tree as it is. -/
theorem relabel_eq_self (h : e.Everywhere ρ.Fixes) : e.relabel ρ = e := by
  induction e using child_induction with
  | node e ih =>
      have hchild : ∀ c ∈ e.children, c.relabel ρ = c := fun c hc => ih c hc (h.child hc)
      have hall {es : List Expr} (hes : ∀ c ∈ es, c ∈ e.children) :
          es.map (relabel ρ) = es :=
        (List.map_congr_left fun c hc => hchild c (hes c hc)).trans (List.map_id' es)
      have hself := h.self
      match e with
      | .constant (.set members) => simp [relabel, hall fun c (hc : c ∈ members) => hc]
      | .constant (.string s) => rfl
      | .constant (.number d) => rfl
      | .placeholder ⟨scope, name, none⟩ =>
          have hname : ρ.name (scope, name) = (scope, name) := hself
          simp [relabel, hname]
      | .placeholder ⟨scope, name, some arguments⟩ =>
          have hname : ρ.name (scope, name) = (scope, name) := hself
          simp [relabel, hname, hall fun c (hc : c ∈ arguments) => hc]
      | .variable path template =>
          have hpath : ρ.path path = path := hself
          simp [relabel, hpath]
      | .call path template arguments =>
          have hpath : ρ.path path = path := hself
          simp [relabel, hpath, hall fun c (hc : c ∈ arguments) => hc]
      | .not operand => simp [relabel, hchild operand (by simp [children])]
      | .binary op left right =>
          simp [relabel, hchild left (by simp [children]), hchild right (by simp [children])]

/-- A relabeling that gives back the recorded names gives back the tree. -/
theorem relabel_undo (h : e.Everywhere (ρ.andThen ρ').Fixes) :
    (e.relabel ρ).relabel ρ' = e := by
  rw [relabel_relabel, relabel_eq_self h]

end Walk

section Undo

theorem mem_recorded_iff {r : Path} : r ∈ e.recorded ↔ ∃ t ∈ e.subtrees, t.path? = some r :=
  List.mem_filterMap

theorem mem_recorded_iff_children {r : Path} :
    r ∈ e.recorded ↔ e.path? = some r ∨ ∃ c ∈ e.children, r ∈ c.recorded := by
  simp only [mem_recorded_iff, mem_subtrees_iff (e := e)]
  constructor
  · rintro ⟨t, rfl | ⟨c, hc, ht⟩, hr⟩
    · exact Or.inl hr
    · exact Or.inr ⟨c, hc, t, ht, hr⟩
  · rintro (hr | ⟨c, hc, t, ht, hr⟩)
    · exact ⟨e, Or.inl rfl, hr⟩
    · exact ⟨t, Or.inr ⟨c, hc, ht⟩, hr⟩

theorem recorded_eq_nil_of_child {c : Expr} (hc : c ∈ e.children)
    (h : e.recorded = []) : c.recorded = [] := by
  rw [List.eq_nil_iff_forall_not_mem] at h ⊢
  intro r hr
  exact h r (mem_recorded_iff_children.mpr (Or.inr ⟨c, hc, hr⟩))

/-- A relabeling leaves all names of a tree as they are when it does so for the recorded
paths and for the placeholders. -/
theorem everywhere_fixes_iff :
    e.Everywhere ρ.Fixes ↔ (∀ r ∈ e.recorded, ρ.path r = r) ∧
      ∀ p ∈ e.placeholders, ρ.name (p.scope, p.name) = (p.scope, p.name) := by
  constructor
  · intro h
    refine ⟨?_, fun p hp => h _ (mem_placeholders_iff.mp hp)⟩
    intro r hr
    obtain ⟨t, ht, hr⟩ := mem_recorded_iff.mp hr
    have hfixes := h t ht
    match t with
    | .variable _ _ =>
        cases hr
        exact hfixes
    | .call _ _ _ =>
        cases hr
        exact hfixes
  · rintro ⟨hpaths, hnames⟩ t ht
    match t with
    | .constant _ => trivial
    | .placeholder p => exact hnames p (mem_placeholders_iff.mpr ht)
    | .variable path _ => exact hpaths path (mem_recorded_iff.mpr ⟨_, ht, rfl⟩)
    | .call path _ _ => exact hpaths path (mem_recorded_iff.mpr ⟨_, ht, rfl⟩)
    | .not _ => trivial
    | .binary _ _ _ => trivial

/-- A relabeling that gives different names different names can be taken back, in all trees
that record no others. -/
theorem exists_undo {paths : Set Path} {names : Set (List String × Path)}
    (hpaths : Set.InjOn ρ.path paths) (hnames : Set.InjOn ρ.name names) :
    ∃ ρ', ∀ e : Expr, (∀ r ∈ e.recorded, r ∈ paths) →
      (∀ p ∈ e.placeholders, (p.scope, p.name) ∈ names) →
        e.Everywhere (ρ.andThen ρ').Fixes := by
  have : Nonempty Path := ⟨⟨[]⟩⟩
  refine ⟨⟨Function.invFunOn ρ.path paths, Function.invFunOn ρ.name names⟩, ?_⟩
  intro e hrecorded hplaceholders
  refine everywhere_fixes_iff.mpr ⟨?_, ?_⟩
  · exact fun r hr => hpaths.leftInvOn_invFunOn (hrecorded r hr)
  · exact fun p hp => hnames.leftInvOn_invFunOn (hplaceholders p hp)

end Undo

section Comparison

/-- Equal trees stay equal under other names. -/
theorem same_relabel (h : same x y = true) :
    same (x.relabel ρ) (y.relabel ρ) = true := by
  induction x, y using pair_induction with
  | node x y ih =>
      have hall {es es' : List Expr} (hes : ∀ c ∈ es, c ∈ x.parts)
          (hes' : ∀ c' ∈ es', c' ∈ y.parts)
          (h : List.Forall₂ (fun e e' => same e e' = true) es es') :
          List.Forall₂ (fun e e' => same e e' = true) (relabelAll ρ es)
            (relabelAll ρ es') := by
        rw [relabelAll_eq_map, relabelAll_eq_map, List.forall₂_map_left_iff,
          List.forall₂_map_right_iff]
        exact forall₂_imp_of_mem h fun c hc c' hc' => (ih c (hes c hc) c' (hes' c' hc')).1
      rw [same_iff_matches] at h ⊢
      cases h with
      | string s => exact Matches.string s
      | number h => exact Matches.number h
      | @set members members' length cover =>
          refine Matches.set (by simpa using length) ?_
          rw [relabelAll_eq_map, relabelAll_eq_map, List.forall_mem_map]
          intro m hm
          obtain ⟨m', hm', hsame⟩ := cover m hm
          exact ⟨m'.relabel ρ, List.mem_map_of_mem hm', (ih m hm m' hm').2 hsame⟩
      | name scope name => exact Matches.name _ _
      | request scope name h =>
          exact Matches.request _ _ (hall (fun _ hc => hc) (fun _ hc => hc) h)
      | «variable» path template => exact Matches.variable _ template
      | call path ht h =>
          exact Matches.call _ ht
            (hall (fun _ hc => argument_mem_parts hc) (fun _ hc => argument_mem_parts hc) h)
      | not h =>
          exact Matches.not ((ih _ (operand_mem_parts _) _ (operand_mem_parts _)).1 h)
      | binary op hl hr =>
          exact Matches.binary op
            ((ih _ (left_mem_parts op _ _) _ (left_mem_parts op _ _)).1 hl)
            ((ih _ (right_mem_parts op _ _) _ (right_mem_parts op _ _)).1 hr)

/-- Different trees stay different under names that can be taken back. -/
theorem beq_relabel (hx : x.Everywhere (ρ.andThen ρ').Fixes)
    (hy : y.Everywhere (ρ.andThen ρ').Fixes) :
    (x.relabel ρ == y.relabel ρ) = (x == y) := by
  rw [Bool.eq_iff_iff]
  constructor
  · intro h
    have hback := same_relabel (ρ := ρ') h
    rwa [relabel_undo hx, relabel_undo hy] at hback
  · exact same_relabel

/-- The set literals of a tree stay built under names that can be taken back. -/
theorem built_relabel (he : e.Built) (h : e.Everywhere (ρ.andThen ρ').Fixes) :
    (e.relabel ρ).Built := by
  induction he with
  | @node e hhere hparts ih =>
      have hall {es : List Expr} (hes : ∀ c ∈ es, c ∈ e.parts ∧ c ∈ e.children) :
          ∀ c ∈ relabelAll ρ es, c.Built := by
        rw [relabelAll_eq_map, List.forall_mem_map]
        exact fun c hc => ih c (hes c hc).1 (h.child (hes c hc).2)
      match e with
      | .constant (.set members) =>
          refine Built.node ?_ (hall fun c hc => ⟨hc, hc⟩)
          rw [relabel, relabelAll_eq_map]
          refine ⟨?_, ?_⟩
          · rw [Distinct.Apart, List.pairwise_map]
            refine List.Pairwise.imp_of_mem ?_ hhere.1
            intro m n hm hn hne
            rw [beq_relabel (h.child hm) (h.child hn)]
            exact hne
          · rw [List.forall_mem_map]
            intro m hm
            rw [isSet_relabel]
            exact hhere.2 m hm
      | .constant (.string s) => exact built_leaf rfl
      | .constant (.number d) => exact built_leaf rfl
      | .placeholder ⟨scope, name, none⟩ => exact built_leaf rfl
      | .placeholder ⟨scope, name, some arguments⟩ =>
          exact built_placeholder (hall fun c hc => ⟨hc, hc⟩)
      | .variable path template => exact built_leaf rfl
      | .call path template arguments =>
          refine built_call (hall fun c hc => ⟨argument_mem_parts hc, hc⟩) ?_
          exact fun c hc => hparts _ (List.mem_append_right _ (List.mem_map_of_mem hc))
      | .not operand =>
          refine built_not ?_
          exact ih operand (operand_mem_parts operand) (h.child (by simp [children]))
      | .binary op left right =>
          refine built_binary op ?_ ?_
          · exact ih left (left_mem_parts op left right) (h.child (by simp [children]))
          · exact ih right (right_mem_parts op left right) (h.child (by simp [children]))

/-- Collecting members goes the same way under names that can be taken back. -/
theorem collect_relabel {us kept : List Expr}
    (hus : ∀ u ∈ us, u.Everywhere (ρ.andThen ρ').Fixes)
    (h : Distinct.collect isSet us = .ok kept) :
    Distinct.collect isSet (us.map (relabel ρ)) = .ok (kept.map (relabel ρ)) :=
  Distinct.collect_map (fun u _ => isSet_relabel ρ u)
    (fun u hu v hv => beq_relabel (hus u hu) (hus v hv)) h

end Comparison

section Values

variable {o : Oracle}

theorem forall₂_relabel (ρ ρ' : Relabeling) {es : List Expr}
    (h : ∀ e ∈ es, o.Mirrors Eq (e.relabel ρ) (e.relabel ρ')) :
    List.Forall₂ (o.Mirrors Eq) (relabelAll ρ es) (relabelAll ρ' es) := by
  rw [relabelAll_eq_map, relabelAll_eq_map, List.forall₂_map_left_iff,
    List.forall₂_map_right_iff, List.forall₂_same]
  exact h

/-- No value depends on the recorded names. -/
theorem mirrors_relabel (ρ ρ' : Relabeling) (e : Expr) :
    o.Mirrors Eq (e.relabel ρ) (e.relabel ρ') := by
  induction e using child_induction with
  | node e ih =>
      match e with
      | .constant (.string s) =>
          exact Oracle.mirrors_leaf rfl rfl rfl rfl fun v hv => ⟨v, hv, rfl⟩
      | .constant (.number d) =>
          exact Oracle.mirrors_leaf rfl rfl rfl rfl fun v hv => ⟨v, hv, rfl⟩
      | .constant (.set members) =>
          have hall := forall₂_relabel ρ ρ' ih
          refine Oracle.mirrors_set (fun _ hm => exists_right_of_forall₂ hall hm)
            (fun _ hm => exists_left_of_forall₂ hall hm) fun v hv => ⟨v, ?_, rfl⟩
          obtain ⟨vs, hvs, hv⟩ := Oracle.denote_set_eq_ok_iff.mp hv
          obtain ⟨ws, hws, hvws⟩ := forall₂_transfer hall hvs fun _ _ v h hv => h.value v hv
          rw [List.forall₂_eq_eq_eq] at hvws
          exact Oracle.denote_set_eq_ok_iff.mpr ⟨ws, hws, hvws ▸ hv⟩
      | .placeholder ⟨scope, name, none⟩ =>
          exact Oracle.mirrors_leaf rfl rfl rfl rfl fun v hv => by cases hv
      | .placeholder ⟨scope, name, some arguments⟩ =>
          exact Oracle.mirrors_request (forall₂_relabel ρ ρ' ih)
      | .variable path template =>
          refine Oracle.mirrors_leaf rfl rfl rfl rfl fun v hv => ⟨v, ?_, rfl⟩
          exact Oracle.denote_variable_eq_ok_iff.mpr (Oracle.denote_variable_eq_ok_iff.mp hv)
      | .call path template arguments =>
          refine Oracle.mirrors_call rfl rfl congruence_eq.kind_eq ?_ (forall₂_relabel ρ ρ' ih)
          intro vs ws hvws v hv
          rw [List.forall₂_eq_eq_eq] at hvws
          exact ⟨v, hvws ▸ hv, rfl⟩
      | .not operand =>
          exact Oracle.mirrors_not congruence_eq (ih operand (by simp [children]))
      | .binary op left right =>
          exact Oracle.mirrors_binary congruence_eq (ih left (by simp [children]))
            (ih right (by simp [children]))

end Values

section Paths

/-- The tree with other recorded paths. -/
def repath (f : Path → Path) (e : Expr) : Expr :=
  e.relabel ⟨f, id⟩

/-- The tree without what its nodes were bound from. -/
def pathless (e : Expr) : Expr :=
  e.repath fun _ => ⟨[]⟩

theorem repath_set (f : Path → Path) (members : List Expr) :
    (set members).repath f = set (members.map (repath f)) :=
  congrArg set (relabelAll_eq_map _ members)

theorem repath_call (f : Path → Path) (path : Path) (template : FunctionTemplate Expr)
    (arguments : List Expr) :
    (call path template arguments).repath f =
      call (f path) template (arguments.map (repath f)) :=
  congrArg (call (f path) template) (relabelAll_eq_map _ arguments)

theorem pathless_call (path : Path) (template : FunctionTemplate Expr)
    (arguments : List Expr) :
    (call path template arguments).pathless =
      call ⟨[]⟩ template (arguments.map pathless) :=
  repath_call _ path template arguments

variable {f : Path → Path}

/-- New paths leave a tree as it is when they leave its recorded paths. -/
theorem repath_eq_self (h : ∀ r ∈ e.recorded, f r = r) : e.repath f = e :=
  relabel_eq_self (everywhere_fixes_iff.mpr ⟨h, fun _ _ => rfl⟩)

/-- What is left without recorded paths does not depend on which they were. -/
theorem pathless_repath (f : Path → Path) (e : Expr) : (e.repath f).pathless = e.pathless :=
  relabel_relabel _ _ e

variable {o : Oracle} {u u' : Expr}

/-- Of two trees that differ only in the recorded paths, each can take the place of the
other. -/
theorem mirrors_of_pathless (h : u.pathless = u'.pathless) :
    o.Mirrors Eq u u.pathless ∧ o.Mirrors Eq u.pathless u' := by
  have hself (e : Expr) : e.relabel ⟨id, id⟩ = e := repath_eq_self fun _ _ => rfl
  constructor
  · have hthere := mirrors_relabel (o := o) ⟨id, id⟩ ⟨fun _ => ⟨[]⟩, id⟩ u
    rwa [hself] at hthere
  · have hback := mirrors_relabel (o := o) ⟨fun _ => ⟨[]⟩, id⟩ ⟨id, id⟩ u'
    rw [hself] at hback
    rw [h]
    exact hback

/-- Trees that differ only in the recorded paths pass the checks alike. -/
theorem check_of_pathless (h : u.pathless = u'.pathless) (hcheck : u.check = .ok ()) :
    u'.check = .ok () := by
  obtain ⟨hthere, hback⟩ := mirrors_of_pathless (o := Assignment.empty.oracle) h
  exact hback.check (hthere.check hcheck)

variable {σ : Type} {limits : Limits} {ctx : Context σ} {v : Value}

theorem evaluateValue_of_pathless (hctx : ctx.Deterministic)
    (h : u.pathless = u'.pathless) {s s' : σ}
    (hv : evaluateValue limits ctx u s = .ok v s') (t : σ) :
    ∃ t', evaluateValue limits ctx u' t = .ok v t' := by
  have hfollows := hctx.follows s
  obtain ⟨hthere, hback⟩ := mirrors_of_pathless (o := ctx.oracleAt s) h
  obtain ⟨w, r, hw, rfl⟩ := evaluateValue_of_mirrors hfollows hthere hv s
  obtain ⟨w, t', hw, rfl⟩ := evaluateValue_of_mirrors hfollows hback hw t
  exact ⟨t', hw⟩

/-- In a deterministic context, trees that differ only in the recorded paths have the same
values, in whatever states of the context they are evaluated. -/
theorem evaluateValue_iff_of_pathless (hctx : ctx.Deterministic)
    (h : u.pathless = u'.pathless) (s t : σ) :
    (∃ s', evaluateValue limits ctx u s = .ok v s') ↔
      ∃ t', evaluateValue limits ctx u' t = .ok v t' := by
  constructor
  · rintro ⟨s', hv⟩
    exact evaluateValue_of_pathless hctx h hv t
  · rintro ⟨t', hv⟩
    exact evaluateValue_of_pathless hctx h.symm hv s

end Paths

end Expr

end Criteria
