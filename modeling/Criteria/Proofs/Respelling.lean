import Criteria.Proofs.Culprit
import Criteria.Proofs.Relabeling
import Criteria.Proofs.Spelling

/-!
# Binding in another locale

A tree whose placeholders are written with global names can be written with the names of a
locale, and binding it there finds the same templates.  The bound tree records the paths of
the locale in the place of the global ones and is otherwise the same, with one reservation.
The members of a set literal are compared with their recorded paths, and the defaults that
a function fills in may hold variables and calls with paths of their own, which no locale
changes.  Where such a path is that of a placeholder in one spelling but not in the other,
members may become equal, or different, by the change of the locale.

**Results.**
* `origin_of_instantiate`: where the paths in a bound tree come from.
* `instantiate_respell`: plain substitution goes with a change of paths that keeps
  different paths different.
* `built_respell`: a respelled tree has no equal members in its set literals either.
* `bind_respell`: a tree and its respelling are bound to trees that differ only in the
  recorded paths and have the same values.
* `locale_changes_value`: without the reservation they may have different values.
-/

namespace Criteria

open Outcome Evaluation

variable {space : Namespace} {locale : Option String}

namespace Placeholder

/-- The defaults that a placeholder leaves to its function. -/
def filledIn (space : Namespace) (locale : Option String) (p : Placeholder Expr) :
    List (Constant Expr) :=
  match p.target space locale with
  | .ok (_, .function template) =>
      template.defaults.drop (p.argumentList.length - template.least)
  | _ => []

theorem filledIn_of_target {p : Placeholder Expr} {path : Path}
    {template : FunctionTemplate Expr}
    (h : p.target space locale = .ok (path, .function template)) :
    p.filledIn space locale =
      template.defaults.drop (p.argumentList.length - template.least) := by
  rw [filledIn, h]

end Placeholder

namespace Expr

section Origins

/-- Where a path in a bound tree may come from: it was recorded in the tree before, or it is
the path of a placeholder, or it is recorded in a default that is filled in. -/
def Origin (space : Namespace) (locale : Option String) (e : Expr) (r : Path) : Prop :=
  r ∈ e.recorded ∨
    ∃ p ∈ e.placeholders, r = ⟨p.fullPath⟩ ∨
      ∃ c ∈ p.filledIn space locale, r ∈ (constant c).recorded

variable {e c u : Expr} {es us : List Expr} {r : Path}

theorem Origin.of_child (hc : c ∈ e.children) (h : c.Origin space locale r) :
    e.Origin space locale r := by
  rcases h with hr | ⟨p, hp, h⟩
  · exact Or.inl (mem_recorded_iff_children.mpr (Or.inr ⟨c, hc, hr⟩))
  · exact Or.inr ⟨p, mem_placeholders_of_child hc hp, h⟩

theorem origin_of_forall₂ (hes : ∀ x ∈ es, x ∈ e.children)
    (hall : List.Forall₂ (fun x u => x.instantiate space locale = .ok u) es us)
    (h : ∀ x ∈ e.children, ∀ {u r}, x.instantiate space locale = .ok u →
      r ∈ u.recorded → x.Origin space locale r) :
    ∀ u ∈ us, ∀ r ∈ u.recorded, e.Origin space locale r := by
  intro u hu r hr
  obtain ⟨x, hx, hxu⟩ := exists_left_of_forall₂ hall hu
  exact (h x (hes x hx) hxu hr).of_child (hes x hx)

/-- The paths in a bound tree come from the tree, its placeholders and their defaults. -/
theorem origin_of_instantiate (hu : e.instantiate space locale = .ok u)
    (hr : r ∈ u.recorded) : e.Origin space locale r := by
  induction e using child_induction generalizing u r with
  | node e ih =>
      rw [mem_recorded_iff_children] at hr
      cases rebuilt_of_instantiate hu with
      | string s => simp [path?, children] at hr
      | number d => simp [path?, children] at hr
      | @set members us kept hall hkept =>
          rcases hr with hr | ⟨k, hk, hr⟩
          · cases hr
          · have hmem := (Distinct.collect_sublist isSet hkept).subset hk
            exact origin_of_forall₂ (e := set members) (fun _ hx => hx) hall ih k hmem r hr
      | @name scope name path template htarget =>
          rcases hr with hr | ⟨k, hk, -⟩
          · cases hr
            obtain ⟨-, rfl, -⟩ := Placeholder.target_eq_ok_iff.mp htarget
            exact Or.inr ⟨_, List.mem_singleton_self _, Or.inl rfl⟩
          · cases hk
      | @request p path template us htarget hall =>
          have hp := self_mem_placeholders p
          rcases hr with hr | ⟨k, hk, hr⟩
          · cases hr
            obtain ⟨-, rfl, -⟩ := Placeholder.target_eq_ok_iff.mp htarget
            exact Or.inr ⟨p, hp, Or.inl rfl⟩
          · rcases List.mem_append.mp hk with hk | hk
            · exact origin_of_forall₂ (e := placeholder p) (fun _ hx => hx) hall ih k hk r hr
            · obtain ⟨c, hc, rfl⟩ := List.mem_map.mp hk
              rw [← Placeholder.filledIn_of_target htarget] at hc
              exact Or.inr ⟨p, hp, Or.inr ⟨c, hc, hr⟩⟩
      | «variable» path template =>
          exact Or.inl (mem_recorded_iff_children.mpr hr)
      | @call path template arguments us hall =>
          rcases hr with hr | ⟨k, hk, hr⟩
          · exact Or.inl (mem_recorded_iff_children.mpr (Or.inl hr))
          · exact origin_of_forall₂ (e := call path template arguments) (fun _ hx => hx) hall
              ih k hk r hr
      | @not operand u h =>
          rcases hr with hr | ⟨k, hk, hr⟩
          · cases hr
          · rw [List.mem_singleton.mp hk] at hr
            have hmem : operand ∈ (Expr.not operand).children := List.mem_singleton_self _
            exact (ih operand hmem h hr).of_child hmem
      | @binary op left right u v hl hr' =>
          have hleft : left ∈ (binary op left right).children := by simp [children]
          have hright : right ∈ (binary op left right).children := by simp [children]
          rcases hr with hr | ⟨k, hk, hr⟩
          · cases hr
          · rcases List.mem_pair.mp hk with rfl | rfl
            · exact (ih left hleft hl hr).of_child hleft
            · exact (ih right hright hr' hr).of_child hright

end Origins

end Expr

/-- The names of placeholders in the spelling of a locale, segment by segment. -/
def Namespace.respelling (space : Namespace) (locale : Option String) : Relabeling where
  path := id
  name written :=
    let segments := space.respell locale (written.1 ++ written.2.segments)
    (segments.take written.1.length, ⟨segments.drop written.1.length⟩)

namespace Placeholder

variable {p : Placeholder Expr} {path : Path} {symbol : Symbol}

theorem fullPath_respelling (space : Namespace) (locale : Option String)
    (p : Placeholder Expr) :
    (Expr.relabelPlaceholder (space.respelling locale) p).fullPath =
      space.respell locale p.fullPath :=
  List.take_append_drop _ _

theorem suits_relabel (ρ : Relabeling) :
    (Expr.relabelPlaceholder ρ p).Suits symbol ↔ p.Suits symbol := by
  cases symbol with
  | «variable» template =>
      rw [Suits, Suits, Expr.relabelPlaceholder, Option.map_eq_none_iff]
  | function template =>
      rw [Suits, Suits, Expr.argumentList_relabelPlaceholder, List.length_map]

/-- A respelled placeholder has, in the locale, the target of the placeholder. -/
theorem target_respelling {d : Draft} (hd : d.register = .ok space)
    (hvalid : ∀ s ∈ space.respell locale p.fullPath, Path.validSegment s = true)
    (h : p.target space none = .ok (path, symbol)) :
    (Expr.relabelPlaceholder (space.respelling locale) p).target space locale =
      .ok (⟨space.respell locale p.fullPath⟩, symbol) := by
  obtain ⟨hsymbol, -, -, hsuits⟩ := target_eq_ok_iff.mp h
  rw [target_eq_ok_iff, SegmentsValid, fullPath_respelling]
  exact ⟨Namespace.resolve_respell hd hsymbol, rfl, hvalid, (suits_relabel _).mpr hsuits⟩

end Placeholder

namespace Expr

/-- The tree with its placeholders written in the spelling of a locale. -/
def respell (space : Namespace) (locale : Option String) (e : Expr) : Expr :=
  e.relabel (space.respelling locale)

/-- A change of paths that goes with the spelling of a locale: the paths of placeholders are
respelled, those in the defaults that are filled in stay, and different paths stay
different. -/
structure Respells (space : Namespace) (locale : Option String) (f : Path → Path)
    (e : Expr) : Prop where
  placeholder : ∀ p ∈ e.placeholders, f ⟨p.fullPath⟩ = ⟨space.respell locale p.fullPath⟩
  default : ∀ p ∈ e.placeholders, ∀ c ∈ p.filledIn space none,
    ∀ r ∈ (constant c).recorded, f r = r
  injOn : Set.InjOn f {r | e.Origin space none r}

/-- All segments of the respelled placeholders are valid. -/
def SpellingsValid (space : Namespace) (locale : Option String) (e : Expr) : Prop :=
  ∀ p ∈ e.placeholders, ∀ s ∈ space.respell locale p.fullPath, Path.validSegment s = true

instance (space : Namespace) (locale : Option String) (e : Expr) :
    Decidable (e.SpellingsValid space locale) :=
  inferInstanceAs (Decidable (∀ p ∈ e.placeholders,
    ∀ s ∈ space.respell locale p.fullPath, Path.validSegment s = true))

section Substitution

variable {d : Draft} {f : Path → Path} {e u c : Expr} {es us : List Expr}

theorem Respells.child (h : e.Respells space locale f) (hc : c ∈ e.children) :
    c.Respells space locale f where
  placeholder p hp := h.placeholder p (mem_placeholders_of_child hc hp)
  default p hp := h.default p (mem_placeholders_of_child hc hp)
  injOn := h.injOn.mono fun _ hr => Origin.of_child hc hr

theorem SpellingsValid.child (h : e.SpellingsValid space locale) (hc : c ∈ e.children) :
    c.SpellingsValid space locale :=
  fun p hp => h p (mem_placeholders_of_child hc hp)

theorem respell_placeholder (space : Namespace) (locale : Option String)
    (p : Placeholder Expr) :
    (placeholder p).respell space locale =
      placeholder (relabelPlaceholder (space.respelling locale) p) :=
  relabel_placeholder _ p

theorem respell_set (space : Namespace) (locale : Option String) (members : List Expr) :
    (set members).respell space locale = set (members.map (respell space locale)) :=
  congrArg set (relabelAll_eq_map _ members)

/-- Substitution in the respelled trees of a list. -/
theorem forall₂_respell {g : Expr → Expr}
    (hall : List.Forall₂ (fun e u => e.instantiate space none = .ok u) es us)
    (h : ∀ e ∈ es, ∀ u, e.instantiate space none = .ok u →
      (e.respell space locale).instantiate space locale = .ok (g u)) :
    List.Forall₂ (fun e u => e.instantiate space locale = .ok u)
      (es.map (respell space locale)) (us.map g) := by
  rw [List.forall₂_map_left_iff, List.forall₂_map_right_iff]
  exact forall₂_imp_of_mem hall fun e he u _ hu => h e he u hu

/-- What a respelled name is replaced by. -/
theorem instantiate_respell_name (hd : d.register = .ok space) {p : Placeholder Expr}
    {path : Path} {template : VariableTemplate}
    (hvalid : ∀ s ∈ space.respell locale p.fullPath, Path.validSegment s = true)
    (htarget : p.target space none = .ok (path, .variable template)) :
    ((placeholder p).respell space locale).instantiate space locale =
      .ok (.variable ⟨space.respell locale p.fullPath⟩ template) := by
  have htarget' := Placeholder.target_respelling hd hvalid htarget
  have hname : p.arguments = none := (Placeholder.target_eq_ok_iff.mp htarget).2.2.2
  obtain ⟨scope, name, arguments⟩ := p
  subst hname
  exact instantiate_of_rebuilt (Rebuilt.name htarget')

/-- What a respelled request is replaced by. -/
theorem instantiate_respell_request (hd : d.register = .ok space) {p : Placeholder Expr}
    {path : Path} {template : FunctionTemplate Expr}
    (hvalid : ∀ s ∈ space.respell locale p.fullPath, Path.validSegment s = true)
    (htarget : p.target space none = .ok (path, .function template))
    (hall : List.Forall₂ (fun e u => e.instantiate space locale = .ok u)
      (p.argumentList.map (respell space locale)) us) :
    ((placeholder p).respell space locale).instantiate space locale =
      .ok (.call ⟨space.respell locale p.fullPath⟩ template
        (us ++ (p.filledIn space none).map constant)) := by
  have htarget' := Placeholder.target_respelling hd hvalid htarget
  have harguments := argumentList_relabelPlaceholder (space.respelling locale) p
  have hrebuilt := Rebuilt.request htarget' (harguments ▸ hall)
  rw [harguments, List.length_map, ← Placeholder.filledIn_of_target htarget] at hrebuilt
  rw [respell_placeholder]
  exact instantiate_of_rebuilt hrebuilt

/-- Plain substitution goes with a change of paths that keeps different paths different. -/
theorem instantiate_respell (hd : d.register = .ok space) (hunbound : e.recorded = [])
    (hvalid : e.SpellingsValid space locale) (h : e.Respells space locale f)
    (hu : e.instantiate space none = .ok u) :
    (e.respell space locale).instantiate space locale = .ok (u.repath f) := by
  induction e using child_induction generalizing u with
  | node e ih =>
      have hchild : ∀ c ∈ e.children, ∀ u, c.instantiate space none = .ok u →
          (c.respell space locale).instantiate space locale = .ok (u.repath f) :=
        fun c hc u hu => ih c hc (recorded_eq_nil_of_child hc hunbound)
          (hvalid.child hc) (h.child hc) hu
      cases rebuilt_of_instantiate hu with
      | string s => rfl
      | number d => rfl
      | @set members us kept hall hkept =>
          have hpaths : ∀ u ∈ us, ∀ r ∈ u.recorded, (set members).Origin space none r :=
            origin_of_forall₂ (fun _ hx => hx) hall fun _ _ _ _ => origin_of_instantiate
          -- The members are collected alike, because the change of paths can be undone.
          obtain ⟨ρ', hundo⟩ := exists_undo (ρ := ⟨f, id⟩) h.injOn (Set.injOn_id Set.univ)
          have hkept' := collect_relabel
            (fun u hu => hundo u (hpaths u hu) fun _ _ => Set.mem_univ _) hkept
          rw [respell_set, repath_set]
          exact instantiate_of_rebuilt (Rebuilt.set (forall₂_respell hall hchild) hkept')
      | @name scope name path template htarget =>
          have hp := self_mem_placeholders ⟨scope, name, none⟩
          rw [instantiate_respell_name hd (hvalid _ hp) htarget, ← h.placeholder _ hp]
          obtain ⟨-, rfl, -⟩ := Placeholder.target_eq_ok_iff.mp htarget
          rfl
      | @request p path template us htarget hall =>
          have hp := self_mem_placeholders p
          have hdefaults : (p.filledIn space none).map (repath f ∘ constant) =
              (p.filledIn space none).map constant :=
            List.map_congr_left fun c hc => repath_eq_self (h.default p hp c hc)
          rw [instantiate_respell_request hd (hvalid p hp) htarget (forall₂_respell hall hchild),
            ← Placeholder.filledIn_of_target htarget, repath_call, List.map_append,
            List.map_map, hdefaults, ← h.placeholder p hp]
          obtain ⟨-, rfl, -⟩ := Placeholder.target_eq_ok_iff.mp htarget
          rfl
      | «variable» path template => cases hunbound
      | call path template hall => cases hunbound
      | @not operand u hoperand =>
          have hnew := hchild operand (by simp [children]) u hoperand
          exact instantiate_of_rebuilt (Rebuilt.not hnew)
      | @binary op left right u v hl hr =>
          have hleft := hchild left (by simp [children]) u hl
          have hright := hchild right (by simp [children]) v hr
          exact instantiate_of_rebuilt (Rebuilt.binary op hleft hright)

end Substitution

section Paths

/-- No default that is filled in for a placeholder of the tree records a path that is the
path of a placeholder of the tree in one spelling only. -/
def DefaultsApart (space : Namespace) (locale : Option String) (e : Expr) : Prop :=
  ∀ p ∈ e.placeholders, ∀ c ∈ p.filledIn space none, ∀ r ∈ (constant c).recorded,
    ∀ q ∈ e.placeholders, r.segments = q.fullPath ↔
      r.segments = space.respell locale q.fullPath

instance (space : Namespace) (locale : Option String) (e : Expr) :
    Decidable (e.DefaultsApart space locale) :=
  inferInstanceAs (Decidable (∀ p ∈ e.placeholders, ∀ c ∈ p.filledIn space none,
    ∀ r ∈ (constant c).recorded, ∀ q ∈ e.placeholders, r.segments = q.fullPath ↔
      r.segments = space.respell locale q.fullPath))

/-- The paths of the placeholders of a tree in the spelling of a locale; others stay. -/
def respellPath (space : Namespace) (locale : Option String) (e : Expr) (r : Path) : Path :=
  if r.segments ∈ e.placeholders.map (·.fullPath) then
    ⟨space.respell locale r.segments⟩
  else r

variable {d : Draft} {e : Expr} {p : Placeholder Expr} {r : Path}

theorem respellPath_of_placeholder (hp : p ∈ e.placeholders) :
    e.respellPath space locale ⟨p.fullPath⟩ = ⟨space.respell locale p.fullPath⟩ :=
  if_pos (List.mem_map_of_mem hp)

theorem DefaultsApart.respellPath_of_default (h : e.DefaultsApart space locale)
    (hp : p ∈ e.placeholders) {c : Constant Expr} (hc : c ∈ p.filledIn space none)
    (hr : r ∈ (constant c).recorded) : e.respellPath space locale r = r := by
  rw [respellPath]
  split
  · next hmem =>
      obtain ⟨q, hq, hpath⟩ := List.mem_map.mp hmem
      have hspelled := (h p hp c hc r hr q hq).mp hpath.symm
      rw [← hpath, ← hspelled]
  · rfl

/-- A default does not get the path that a placeholder is given. -/
theorem DefaultsApart.eq_of_default (h : e.DefaultsApart space locale)
    (hp : p ∈ e.placeholders) {c : Constant Expr} (hc : c ∈ p.filledIn space none)
    (hr : r ∈ (constant c).recorded) {q : Placeholder Expr} (hq : q ∈ e.placeholders)
    (heq : e.respellPath space locale ⟨q.fullPath⟩ = e.respellPath space locale r) :
    ⟨q.fullPath⟩ = r := by
  rw [respellPath_of_placeholder hq, h.respellPath_of_default hp hc hr] at heq
  have hpath := (h p hp c hc r hr q hq).mpr (congrArg Path.segments heq.symm)
  rw [← hpath]

/-- Respelling the paths of the placeholders goes with the spelling of the locale. -/
theorem respells_respellPath (hd : d.register = .ok space) (hunbound : e.recorded = [])
    (hgood : ∀ p ∈ e.placeholders, p.Good space none) (h : e.DefaultsApart space locale) :
    e.Respells space locale (e.respellPath space locale) where
  placeholder p hp := respellPath_of_placeholder hp
  default p hp c hc r hr := h.respellPath_of_default hp hc hr
  injOn := by
    intro r (hr : e.Origin space none r) r' (hr' : e.Origin space none r') heq
    rw [Origin, hunbound] at hr hr'
    obtain ⟨p, hp, rfl | ⟨c, hc, hrc⟩⟩ := hr.resolve_left List.not_mem_nil <;>
      obtain ⟨q, hq, rfl | ⟨c', hc', hrc'⟩⟩ := hr'.resolve_left List.not_mem_nil
    · rw [respellPath_of_placeholder hp, respellPath_of_placeholder hq, Path.mk.injEq] at heq
      obtain ⟨symbol, hsymbol, -⟩ := hgood p hp
      obtain ⟨symbol', hsymbol', -⟩ := hgood q hq
      rw [Namespace.respell_injOn hd locale ⟨symbol, hsymbol⟩ ⟨symbol', hsymbol'⟩ heq]
    · exact h.eq_of_default hq hc' hrc' hp heq
    · exact (h.eq_of_default hp hc hrc hq heq.symm).symm
    · rwa [h.respellPath_of_default hp hc hrc, h.respellPath_of_default hq hc' hrc'] at heq

/-- The names of placeholders that can be bound have different respellings. -/
theorem respelling_injOn (hd : d.register = .ok space) (locale : Option String) :
    Set.InjOn (space.respelling locale).name
      {written | ∃ symbol,
        space.resolve none (written.1 ++ written.2.segments) = some symbol} := by
  rintro ⟨scope, ⟨segments⟩⟩ h ⟨scope', ⟨segments'⟩⟩ h' heq
  obtain ⟨hscope, hname⟩ := Prod.mk.inj heq
  have hrest := congrArg Path.segments hname
  have hsegments : scope ++ segments = scope' ++ segments' := by
    refine Namespace.respell_injOn hd locale h h' ?_
    rw [← List.take_append_drop scope.length (space.respell _ (scope ++ segments)),
      ← List.take_append_drop scope'.length (space.respell _ (scope' ++ segments'))]
    exact congrArg₂ (· ++ ·) hscope hrest
  have hlength : scope.length = scope'.length := by
    have := congrArg List.length hscope
    simpa [Namespace.length_respell] using this
  obtain ⟨rfl, rfl⟩ := List.append_inj hsegments hlength
  rfl

/-- The set literals of the respelled tree have been built. -/
theorem built_respell (hd : d.register = .ok space) (he : e.Built)
    (hunbound : e.recorded = []) (hgood : ∀ p ∈ e.placeholders, p.Good space none) :
    (e.respell space locale).Built := by
  have hpaths : Set.InjOn (space.respelling locale).path ∅ := Set.injOn_empty _
  obtain ⟨ρ', hundo⟩ := exists_undo hpaths (respelling_injOn hd locale)
  refine built_relabel he (hundo e ?_ ?_)
  · rw [hunbound]
    exact fun r hr => absurd hr List.not_mem_nil
  · intro p hp
    obtain ⟨symbol, hsymbol, -⟩ := hgood p hp
    exact ⟨symbol, hsymbol⟩

end Paths

/-- A tree that can be written in the spelling of a locale: it has no variables and no calls
yet, the spellings are valid, and within a set literal no default that is filled in records
the path of a placeholder in one spelling only. -/
structure Respellable (space : Namespace) (locale : Option String) (e : Expr) : Prop where
  unbound : e.recorded = []
  valid : e.SpellingsValid space locale
  apart : e.Everywhere fun x => x.isSet = true → x.DefaultsApart space locale

section Locales

variable {d : Draft} {e u c : Expr} {es us : List Expr}

theorem Respellable.child (h : e.Respellable space locale) (hc : c ∈ e.children) :
    c.Respellable space locale where
  unbound := recorded_eq_nil_of_child hc h.unbound
  valid := h.valid.child hc
  apart := h.apart.child hc

theorem exists_forall₂_respell
    (hall : List.Forall₂ (fun e u => e.instantiate space none = .ok u) es us)
    (h : ∀ e ∈ es, ∀ u, e.instantiate space none = .ok u →
      ∃ u', (e.respell space locale).instantiate space locale = .ok u' ∧
        u'.pathless = u.pathless) :
    ∃ us', List.Forall₂ (fun e u => e.instantiate space locale = .ok u)
        (es.map (respell space locale)) us' ∧ us'.map pathless = us.map pathless := by
  induction hall with
  | nil => exact ⟨[], .nil, rfl⟩
  | @cons e u es us hu _ ih =>
      obtain ⟨u', hu', hpathless⟩ := h e List.mem_cons_self u hu
      obtain ⟨us', hus', hrest⟩ := ih fun x hx => h x (List.mem_cons_of_mem e hx)
      refine ⟨u' :: us', .cons hu' hus', ?_⟩
      rw [List.map_cons, List.map_cons, hpathless, hrest]

/-- Plain substitution of a tree and of its respelling gives trees that differ only in the
recorded paths. -/
theorem exists_instantiate_respell (hd : d.register = .ok space)
    (he : e.Respellable space locale) (hgood : ∀ p ∈ e.placeholders, p.Good space none)
    (hu : e.instantiate space none = .ok u) :
    ∃ u', (e.respell space locale).instantiate space locale = .ok u' ∧
      u'.pathless = u.pathless := by
  induction e using child_induction generalizing u with
  | node e ih =>
      have hchild : ∀ c ∈ e.children, ∀ u, c.instantiate space none = .ok u →
          ∃ u', (c.respell space locale).instantiate space locale = .ok u' ∧
            u'.pathless = u.pathless :=
        fun c hc u hu => ih c hc (he.child hc)
          (fun p hp => hgood p (mem_placeholders_of_child hc hp)) hu
      cases rebuilt_of_instantiate hu with
      | string s => exact ⟨_, rfl, rfl⟩
      | number d => exact ⟨_, rfl, rfl⟩
      | @set members us kept hall hkept =>
          -- One change of paths serves the whole set literal.
          have hrespells := respells_respellPath hd he.unbound hgood (he.apart.self rfl)
          exact ⟨_, instantiate_respell hd he.unbound he.valid hrespells hu,
            pathless_repath _ _⟩
      | @name scope name path template htarget =>
          have hp := self_mem_placeholders ⟨scope, name, none⟩
          exact ⟨_, instantiate_respell_name hd (he.valid _ hp) htarget, rfl⟩
      | @request p path template us htarget hall =>
          have hp := self_mem_placeholders p
          obtain ⟨us', hus', hpathless⟩ := exists_forall₂_respell hall hchild
          refine ⟨_, instantiate_respell_request hd (he.valid p hp) htarget hus', ?_⟩
          rw [pathless_call, pathless_call, List.map_append, List.map_append, hpathless,
            Placeholder.filledIn_of_target htarget]
      | «variable» path template => cases he.unbound
      | call path template hall => cases he.unbound
      | @not operand u hoperand =>
          obtain ⟨u', hu', hpathless⟩ := hchild operand (by simp [children]) u hoperand
          refine ⟨_, instantiate_of_rebuilt (Rebuilt.not hu'), ?_⟩
          exact congrArg Expr.not hpathless
      | @binary op left right u v hl hr =>
          obtain ⟨u', hu', hleft⟩ := hchild left (by simp [children]) u hl
          obtain ⟨v', hv', hright⟩ := hchild right (by simp [children]) v hr
          refine ⟨_, instantiate_of_rebuilt (Rebuilt.binary op hu' hv'), ?_⟩
          exact congrArg₂ (Expr.binary op) hleft hright

/-- The locale of a tree does not change its meaning.  A tree without variables and calls,
written with global names, and its respelling in a locale are bound to trees that differ
only in the recorded paths, and in a deterministic context these have the same values under
all limits. -/
theorem bind_respell (hd : d.register = .ok space) (he : e.Built)
    (hrespellable : e.Respellable space locale) (hu : e.bind space none = .ok u) :
    (e.respell space locale).Built ∧
      ∃ u', (e.respell space locale).bind space locale = .ok u' ∧
        u'.pathless = u.pathless ∧
          ∀ (σ : Type) (ctx : Context σ), ctx.Deterministic → ∀ limits v s t,
            (∃ s', evaluateValue limits ctx u s = .ok v s') ↔
              ∃ t', evaluateValue limits ctx u' t = .ok v t' := by
  obtain ⟨hinstantiate, hcheck⟩ := (bind_eq_ok_iff_instantiate he).mp hu
  have hgood : ∀ p ∈ e.placeholders, p.Good space none := by
    rw [← targetAll_eq_ok_iff, ← toCheck_instantiate he, toCheck_eq_ok_iff]
    exact ⟨u, hinstantiate⟩
  have hbuilt : (e.respell space locale).Built :=
    built_respell hd he hrespellable.unbound hgood
  obtain ⟨u', hu', hpathless⟩ := exists_instantiate_respell hd hrespellable hgood hinstantiate
  have hcheck' : u'.check = .ok () := check_of_pathless hpathless.symm hcheck
  refine ⟨hbuilt, u', (bind_eq_ok_iff_instantiate hbuilt).mpr ⟨hu', hcheck'⟩, hpathless, ?_⟩
  intro σ ctx hctx limits v s t
  exact evaluateValue_iff_of_pathless hctx hpathless.symm s t

/-- Within one set literal, a call is written in two ways and a default is filled in. -/
theorem bind_respell_round :
    let digits : Parameter × Constant Expr := (⟨"digits", some .number⟩, .number (.ofInt 2))
    let round : FunctionTemplate Expr :=
      ⟨⟨["round"]⟩, [⟨"value", some .number⟩], [digits], some .number⟩
    let limit : VariableTemplate := ⟨⟨["limit"]⟩, some .number⟩
    let math : Draft := ((Draft.named "math").withAlias "es" "mate").bind
      ((Object.ofSymbol (.function round)).withAlias "es" "redondeo")
    let d : Draft := (Draft.root.nest math).bind
      ((Object.ofSymbol (.variable limit)).withAlias "es" "tope")
    let name (limit : String) : Expr := .placeholder ⟨[], ⟨[limit]⟩, none⟩
    let results (math round limit : String) : List Expr :=
      [.placeholder ⟨[math], ⟨[round]⟩, some [name limit]⟩,
        .placeholder ⟨[], ⟨[math, round]⟩, some [name limit]⟩, .number (.ofInt 3)]
    let write (math round limit : String) : Expr :=
      .binary .belongsTo (name limit) (.set (results math round limit))
    let e : Expr := write "math" "round" "limit"
    let ctx : Context Unit := ((Assignment.empty.setVariable "limit" (.number (.ofInt 7))
      ).setFunction "math.round" fun vs => .ok (vs.headD (.boolean false))).context
    ∃ space u, d.register = .ok space ∧ e.Built ∧ e.Respellable space (some "es") ∧
      e.bind space none = .ok u ∧
        e.respell space (some "es") = write "mate" "redondeo" "tope" ∧
          ∃ u', (e.respell space (some "es")).bind space (some "es") = .ok u' ∧
            u'.pathless = u.pathless ∧
              evaluateValue {} ctx u' () = .ok (.boolean true) () := by
  intro digits round limit math d name results write e ctx
  have hlimit : (name "limit").Built := built_leaf rfl
  have hcall (scope : List String) (path : Path) :
      (placeholder ⟨scope, path, some [name "limit"]⟩).Built :=
    Built.node trivial (List.forall_mem_singleton.mpr hlimit)
  have hset : (set (results "math" "round" "limit")).Built := by
    refine Built.node (builtHere_set_iff.mpr ⟨results "math" "round" "limit", rfl⟩) ?_
    exact List.forall_mem_cons.mpr ⟨hcall _ _, List.forall_mem_cons.mpr
      ⟨hcall _ _, List.forall_mem_singleton.mpr (built_number _)⟩⟩
  have he : e.Built :=
    Built.node trivial (List.forall_mem_cons.mpr
      ⟨hlimit, List.forall_mem_singleton.mpr hset⟩)
  have hbind : ∃ space, d.register = .ok space ∧ e.Respellable space (some "es") ∧
      e.respell space (some "es") = write "mate" "redondeo" "tope" ∧
        ∃ u, e.bind space none = .ok u ∧
          evaluateValue {} ctx u () = .ok (.boolean true) () := by
    simp only [d, math, round, digits, limit]
    refine ⟨_, rfl, ?_⟩
    refine ⟨⟨rfl, by decide, by decide⟩, rfl, ?_⟩
    exact ⟨_, rfl, rfl⟩
  obtain ⟨space, hd, hrespellable, hwrite, u, hu, hvalue⟩ := hbind
  obtain ⟨-, u', hu', hpathless, hvalues⟩ := bind_respell hd he hrespellable hu
  have hctx : ctx.Deterministic := (Assignment.follows _).deterministic
  obtain ⟨⟨⟩, hvalue'⟩ := (hvalues Unit ctx hctx {} _ () ()).mp ⟨(), hvalue⟩
  exact ⟨space, u, hd, he, hrespellable, hu, hwrite, u', hu', hpathless, hvalue'⟩

/-- A locale can change a value.  The set that a function has as its default holds a
variable under its global path; a set written out beside it equals this default in the
global spelling and not in that of the locale, so that two calls remain there where one
did. -/
theorem locale_changes_value :
    let x : VariableTemplate := ⟨⟨["x"]⟩, some .number⟩
    let s : Parameter × Constant Expr :=
      (⟨"s", some .set⟩, .set [.number (.ofInt 1), .variable ⟨["x"]⟩ x])
    let f : FunctionTemplate Expr := ⟨⟨["f"]⟩, [], [s], none⟩
    let d : Draft :=
      (Draft.root.bind ((Object.ofSymbol (.variable x)).withAlias "es" "equis")).bind
        (Object.ofSymbol (.function f))
    let written : Expr := .set [.placeholder ⟨[], ⟨["x"]⟩, none⟩, .number (.ofInt 1)]
    let calls : Expr := .set [.placeholder ⟨[], ⟨["f"]⟩, some []⟩,
      .placeholder ⟨[], ⟨["f"]⟩, some [written]⟩]
    let shown : Expr := .set [.string "\x7b1, 5\x7d"]
    let e : Expr := .binary .isSubset calls shown
    let ctx : Context Unit := ((Assignment.empty.setVariable "x" (.number (.ofInt 5))
      ).setFunction "f" fun vs => .ok (.string (Value.renderList vs))).context
    e.Built ∧ e.recorded = [] ∧ ctx.Deterministic ∧
      ∃ space, d.register = .ok space ∧ e.SpellingsValid space (some "es") ∧
        ∃ u u', e.bind space none = .ok u ∧
          (e.respell space (some "es")).bind space (some "es") = .ok u' ∧
            u'.pathless ≠ u.pathless ∧
              evaluateValue {} ctx u () = .ok (.boolean true) () ∧
                evaluateValue {} ctx u' () = .ok (.boolean false) () := by
  intro x s f d written calls shown e ctx
  have hwritten : written.Built :=
    Built.node (builtHere_set_iff.mpr ⟨written.children, rfl⟩) (List.forall_mem_cons.mpr
      ⟨built_leaf rfl, List.forall_mem_singleton.mpr (built_number _)⟩)
  have hcalls : calls.Built := by
    refine Built.node (builtHere_set_iff.mpr ⟨calls.children, rfl⟩) ?_
    refine List.forall_mem_cons.mpr ⟨built_leaf rfl, List.forall_mem_singleton.mpr ?_⟩
    exact Built.node trivial (List.forall_mem_singleton.mpr hwritten)
  have hshown : shown.Built :=
    Built.node (builtHere_set_iff.mpr ⟨shown.children, rfl⟩)
      (List.forall_mem_singleton.mpr (built_leaf rfl))
  have he : e.Built :=
    Built.node trivial (List.forall_mem_cons.mpr
      ⟨hcalls, List.forall_mem_singleton.mpr hshown⟩)
  have hctx : ctx.Deterministic := (Assignment.follows _).deterministic
  refine ⟨he, rfl, hctx, ?_⟩
  simp only [d, f, s, x]
  refine ⟨_, rfl, ?_⟩
  refine ⟨by decide, _, _, rfl, rfl, ?_⟩
  refine ⟨?_, rfl, rfl⟩
  intro h
  cases h

end Locales

end Expr

end Criteria
