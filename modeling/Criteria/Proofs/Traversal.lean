import Criteria.Conversion.Basic
import Criteria.Proofs.LoggedRun
import Criteria.Proofs.Occurrences

/-!
# The order of a conversion

A conversion calls its converter once for each occurrence of a tree, from the leaves up and
from left to right.  Each time it calls the case that belongs to the node, for an operation
the case of its operator, and hands it what the children of the node have become, in their
order.  It stops at the first call that fails and passes the error on, or at the first
placeholder, before looking at the arguments; else it gets to the root and what the root
becomes is the result.

To state this, the calls and their outcomes are written down, whatever the converter keeps in
its state.  Writing down changes nothing, so what is said of a conversion that is written down
is said of every conversion.

**Results.**
* `operation_eq_apply`: each operator gets to the callback that belongs to it.
* `visits_convert`: a tree visits its own occurrences.
* `convert_visits`: the calls of a conversion, from the first to the last.
-/

namespace Criteria

open Outcome

/-- A case of a converter with what it is given. -/
inductive Callback (β : Type) where
  | string (s : String)
  | number (d : Decimal)
  | set (members : List β)
  | reference (path : Path) (template : VariableTemplate)
  | call (path : Path) (template : FunctionTemplate Expr) (arguments : List β)
  | negation (operand : β)
  | and (left right : β)
  | or (left right : β)
  | xor (left right : β)
  | equal (left right : β)
  | notEqual (left right : β)
  | lessThan (left right : β)
  | greaterThan (left right : β)
  | lessOrEqual (left right : β)
  | greaterOrEqual (left right : β)
  | belongsTo (element set : β)
  | isSubset (subset superset : β)

/-- The callback that belongs to an operator. -/
def Callback.operation {β : Type} : BinaryOp → β → β → Callback β
  | .and => .and
  | .or => .or
  | .xor => .xor
  | .equal => .equal
  | .notEqual => .notEqual
  | .lessThan => .lessThan
  | .greaterThan => .greaterThan
  | .lessOrEqual => .lessOrEqual
  | .greaterOrEqual => .greaterOrEqual
  | .belongsTo => .belongsTo
  | .isSubset => .isSubset

/-- A callback and how it ended. -/
structure CallbackRun (β : Type) where
  callback : Callback β
  outcome : Except ConversionError β

namespace Converter

variable {σ β : Type}

/-- Runs a callback. -/
def apply (c : Converter σ β) : Callback β → EStateM ConversionError σ β
  | .string s => c.string s
  | .number d => c.number d
  | .set members => c.set members
  | .reference path template => c.reference path template
  | .call path template arguments => c.call path template arguments
  | .negation operand => c.negation operand
  | .and left right => c.and left right
  | .or left right => c.or left right
  | .xor left right => c.xor left right
  | .equal left right => c.equal left right
  | .notEqual left right => c.notEqual left right
  | .lessThan left right => c.lessThan left right
  | .greaterThan left right => c.greaterThan left right
  | .lessOrEqual left right => c.lessOrEqual left right
  | .greaterOrEqual left right => c.greaterOrEqual left right
  | .belongsTo element set => c.belongsTo element set
  | .isSubset subset superset => c.isSubset subset superset

/-- The converter that works in the same way and writes down what it is called for, with how
it ended. -/
def recording (c : Converter σ β) : Converter (σ × List (CallbackRun β)) β where
  string s := noting (.mk (.string s)) (c.string s)
  number d := noting (.mk (.number d)) (c.number d)
  set members := noting (.mk (.set members)) (c.set members)
  reference path template := noting (.mk (.reference path template)) (c.reference path template)
  call path template arguments :=
    noting (.mk (.call path template arguments)) (c.call path template arguments)
  negation operand := noting (.mk (.negation operand)) (c.negation operand)
  and left right := noting (.mk (.and left right)) (c.and left right)
  or left right := noting (.mk (.or left right)) (c.or left right)
  xor left right := noting (.mk (.xor left right)) (c.xor left right)
  equal left right := noting (.mk (.equal left right)) (c.equal left right)
  notEqual left right := noting (.mk (.notEqual left right)) (c.notEqual left right)
  lessThan left right := noting (.mk (.lessThan left right)) (c.lessThan left right)
  greaterThan left right := noting (.mk (.greaterThan left right)) (c.greaterThan left right)
  lessOrEqual left right := noting (.mk (.lessOrEqual left right)) (c.lessOrEqual left right)
  greaterOrEqual left right :=
    noting (.mk (.greaterOrEqual left right)) (c.greaterOrEqual left right)
  belongsTo element set := noting (.mk (.belongsTo element set)) (c.belongsTo element set)
  isSubset subset superset := noting (.mk (.isSubset subset superset)) (c.isSubset subset superset)
  enter e p := (c.enter e p.1, p.2)

theorem recording_apply (c : Converter σ β) (callback : Callback β) :
    c.recording.apply callback = noting (.mk callback) (c.apply callback) := by
  cases callback <;> rfl

/-- Each operator gets to the callback that belongs to it. -/
theorem operation_eq_apply (c : Converter σ β) (op : BinaryOp) (left right : β) :
    c.operation op left right = c.apply (.operation op left right) := by
  cases op <;> rfl

end Converter

/-- The callback that belongs to a node, given what its children have become.  A placeholder
has none. -/
def Expr.callback? {β : Type} : Expr → List β → Option (Callback β)
  | .constant (.string s), [] => some (.string s)
  | .constant (.number d), [] => some (.number d)
  | .constant (.set _), members => some (.set members)
  | .variable path template, [] => some (.reference path template)
  | .call path template _, arguments => some (.call path template arguments)
  | .not _, [operand] => some (.negation operand)
  | .binary op _ _, [left, right] => some (.operation op left right)
  | _, _ => none

namespace Conversion

open Criteria.Expr

variable {σ α β γ δ : Type}

/-- A callback that was run for the tree at an address. -/
structure Visit (β : Type) where
  place : Place
  run : CallbackRun β

/-- The tree at a place has become this. -/
def Yields (visits : List (Visit β)) (place : Place) (b : β) : Prop :=
  ∃ v ∈ visits, v.place = place ∧ v.run.outcome = .ok b

/-- All of these visits ended well. -/
def Succeeded (visits : List (Visit β)) : Prop :=
  ∀ v ∈ visits, ∃ b, v.run.outcome = .ok b

/-- A visit calls what belongs to its node, with what the children of the node have become in
earlier visits, in the order of the children. -/
def Fed (earlier : List (Visit β)) (v : Visit β) : Prop :=
  ∃ inputs, v.place.2.callback? inputs = some v.run.callback ∧
    List.Forall₂ (Yields earlier) (placesFrom v.place.1 0 v.place.2.children) inputs

/-- Each of these visits is fed by those before it. -/
def FedFrom : List (Visit β) → List (Visit β) → Prop
  | _, [] => True
  | earlier, v :: visits => Fed earlier v ∧ FedFrom (earlier ++ [v]) visits

/-- How a run ends that makes these visits, where there are certain places to visit and a
first placeholder among them, or none.  It has a result when all places were visited and all
visits went well; it passes on the error of the last visit; or it stops at the first
placeholder, with nothing visited that stands below it. -/
inductive Ended (places : List Place) (first : Option (Placeholder Expr)) (made : α → Prop)
    (visits : List (Visit β)) : Except ConversionError α → Prop
  | finished {a : α} (all : visits.map Visit.place = places) (succeeded : Succeeded visits)
      (bound : first = none) (result : made a) : Ended places first made visits (.ok a)
  | failed {cause : ConversionError} {earlier : List (Visit β)} {last : Visit β}
      (split : visits = earlier ++ [last]) (isPrefix : visits.map Visit.place <+: places)
      (succeeded : Succeeded earlier) (outcome : last.run.outcome = .error cause) :
      Ended places first made visits (.error cause)
  | unbound {p : Placeholder Expr} {a : Address}
      (before : visits.map Visit.place ++ (placeholder p).occurrences a <+: places)
      (succeeded : Succeeded visits) (isFirst : first = some p) :
      Ended places first made visits (.error (.unbound p.render))

/-- The runs are those of visits to certain places, as far as it gets, each of them fed by
those before it. -/
def Visits (places : List Place) (first : Option (Placeholder Expr))
    (made : List (Visit β) → α → Prop) : Protocol ConversionError (CallbackRun β) α :=
  fun runs r => ∃ visits, runs = visits.map Visit.run ∧ FedFrom [] visits ∧
    Ended places first (made visits) visits r

/-- The runs are those for the occurrences of the tree at a place, and what this tree becomes
is the result. -/
def VisitsAt (place : Place) : Protocol ConversionError (CallbackRun β) β :=
  Visits (place.2.occurrences place.1) place.2.placeholders.head? fun visits b =>
    Yields visits place b

section Lists

variable {earlier visits more : List (Visit β)} {place : Place} {b : β}

theorem Yields.left (h : Yields visits place b) : Yields (visits ++ more) place b := by
  obtain ⟨v, hv, hplace, houtcome⟩ := h
  exact ⟨v, List.mem_append_left _ hv, hplace, houtcome⟩

theorem Yields.right (h : Yields more place b) : Yields (visits ++ more) place b := by
  obtain ⟨v, hv, hplace, houtcome⟩ := h
  exact ⟨v, List.mem_append_right _ hv, hplace, houtcome⟩

theorem succeeded_nil : Succeeded ([] : List (Visit β)) :=
  List.forall_mem_nil _

theorem Succeeded.append (h : Succeeded visits) (h' : Succeeded more) :
    Succeeded (visits ++ more) :=
  List.forall_mem_append.mpr ⟨h, h'⟩

/-- What is fed by some visits is fed when there are others before them. -/
theorem FedFrom.after (h : FedFrom earlier visits) : FedFrom (more ++ earlier) visits := by
  induction visits generalizing earlier with
  | nil => trivial
  | cons v visits ih =>
      obtain ⟨⟨inputs, hcallback, hinputs⟩, hrest⟩ := h
      refine ⟨⟨inputs, hcallback, hinputs.imp fun _ _ h => h.right⟩, ?_⟩
      rw [List.append_assoc]
      exact ih hrest

theorem FedFrom.append (h : FedFrom earlier visits) (h' : FedFrom (earlier ++ visits) more) :
    FedFrom earlier (visits ++ more) := by
  induction visits generalizing earlier with
  | nil => simpa using h'
  | cons v visits ih =>
      refine ⟨h.1, ih h.2 ?_⟩
      simpa using h'

theorem FedFrom.both (h : FedFrom [] visits) (h' : FedFrom [] more) :
    FedFrom [] (visits ++ more) := by
  refine h.append ?_
  rw [List.nil_append, ← List.append_nil visits]
  exact h'.after

end Lists

section Ends

variable {visits more : List (Visit β)} {places places' : List Place}
  {first first' : Option (Placeholder Expr)} {made : α → Prop} {made' : γ → Prop}

/-- However a run ends, it has visited the first of the places. -/
theorem Ended.isPrefix {r : Except ConversionError α} (h : Ended places first made visits r) :
    visits.map Visit.place <+: places := by
  cases h with
  | finished all => exact all ▸ List.prefix_refl _
  | failed _ isPrefix => exact isPrefix
  | unbound before => exact (List.prefix_append _ _).trans before

theorem Ended.map {r : Except ConversionError α} {f : α → γ}
    (h : Ended places first made visits r) (hf : ∀ a, made a → made' (f a)) :
    Ended places first made' visits (r.map f) := by
  cases h with
  | finished all succeeded bound result => exact .finished all succeeded bound (hf _ result)
  | failed split isPrefix succeeded outcome => exact .failed split isPrefix succeeded outcome
  | unbound before succeeded isFirst => exact .unbound before succeeded isFirst

/-- A run that ends badly does so whatever was to come. -/
theorem Ended.stop {cause : ConversionError}
    (h : Ended places first made visits (.error cause)) :
    Ended (places ++ places') (first.or first') made' visits (.error cause) := by
  cases h with
  | failed split isPrefix succeeded outcome =>
      exact .failed split (isPrefix.trans (List.prefix_append _ _)) succeeded outcome
  | unbound before succeeded isFirst =>
      rw [isFirst, Option.some_or]
      exact .unbound (before.trans (List.prefix_append _ _)) succeeded rfl

/-- A run that ends well goes on, and what follows it tells how it ends. -/
theorem Ended.append {a : α} {r : Except ConversionError γ}
    (h : Ended places first made visits (.ok a)) (h' : Ended places' first' made' more r) :
    Ended (places ++ places') (first.or first') made' (visits ++ more) r := by
  cases h with
  | finished all succeeded bound result =>
      subst all
      rw [bound, Option.none_or]
      cases h' with
      | finished all' succeeded' bound' result' =>
          exact .finished (by rw [List.map_append, all']) (succeeded.append succeeded') bound'
            result'
      | failed split isPrefix succeeded' outcome =>
          refine .failed (by rw [split, ← List.append_assoc]) ?_
            (succeeded.append succeeded') outcome
          rw [List.map_append]
          exact (List.prefix_append_right_inj _).mpr isPrefix
      | unbound before succeeded' isFirst =>
          have hbefore := (List.prefix_append_right_inj (visits.map Visit.place)).mpr before
          rw [← List.append_assoc, ← List.map_append] at hbefore
          exact .unbound hbefore (succeeded.append succeeded') isFirst

theorem Ended.result {a : α} (h : Ended places first made visits (.ok a)) : made a := by
  cases h with
  | finished _ _ _ result => exact result

end Ends

section Protocols

variable {places places' : List Place} {first first' : Option (Placeholder Expr)}
  {runs : List (CallbackRun β)}

/-- Two steps in turn visit what the first visits, then what the second visits. -/
theorem Visits.both {made : List (Visit β) → α → Prop} {made' : List (Visit β) → γ → Prop}
    {made'' : List (Visit β) → δ → Prop} {g : α → γ → δ} {r : Except ConversionError δ}
    (h : Then (Visits places first made) (fun x =>
      Then (Visits places' first' made') fun y => Silently (.ok (g x y))) runs r)
    (hmade : ∀ visits more x y, made visits x → made' more y →
      made'' (visits ++ more) (g x y)) :
    Visits (places ++ places') (first.or first') made'' runs r := by
  cases h with
  | stopped h =>
      obtain ⟨visits, hruns, hfed, hended⟩ := h
      exact ⟨visits, hruns, hfed, hended.stop⟩
  | @passed _ _ x _ h h' =>
      obtain ⟨visits, rfl, hfed, hended⟩ := h
      have hboth : ∀ (more : List (Visit β)) y, made' more y → made'' (visits ++ more) (g x y) :=
        fun more y => hmade visits more x y hended.result
      cases h' with
      | stopped h' =>
          obtain ⟨more, rfl, hfed', hended'⟩ := h'
          exact ⟨visits ++ more, List.map_append.symm, hfed.both hfed',
            hended.append (hended'.map (hboth more))⟩
      | @passed _ _ y _ h' hsilent =>
          obtain ⟨more, rfl, hfed', hended'⟩ := h'
          obtain ⟨rfl, rfl⟩ := hsilent
          rw [List.append_nil]
          exact ⟨visits ++ more, List.map_append.symm, hfed.both hfed',
            hended.append (hended'.map (hboth more))⟩

/-- A step and then the callback of a node, which is fed by what the step has made. -/
theorem Visits.root {made : List (Visit β) → α → Prop} {a : Address} {e : Expr}
    {callback : α → Callback β} {r : Except ConversionError β}
    (h : Then (Visits places first made) (fun x => Notes (.mk (callback x))) runs r)
    (hfed : ∀ visits x, made visits x → ∃ inputs, e.callback? inputs = some (callback x) ∧
      List.Forall₂ (Yields visits) (placesFrom a 0 e.children) inputs) :
    Visits (places ++ [(a, e)]) first (fun visits b => Yields visits (a, e) b) runs r := by
  rw [← Option.or_none (o := first)]
  cases h with
  | stopped h =>
      obtain ⟨visits, hruns, hfrom, hended⟩ := h
      exact ⟨visits, hruns, hfrom, hended.stop⟩
  | @passed _ _ x _ h hnotes =>
      obtain ⟨visits, rfl, hfrom, hended⟩ := h
      obtain rfl := hnotes
      have hlast : Fed visits ⟨(a, e), ⟨callback x, r⟩⟩ := hfed visits x hended.result
      refine ⟨visits ++ [⟨(a, e), ⟨callback x, r⟩⟩], by rw [List.map_append]; rfl,
        hfrom.append ⟨by simpa using hlast, trivial⟩, hended.append ?_⟩
      cases r with
      | ok b => exact .finished rfl (by simp [Succeeded]) rfl (by simp [Yields])
      | error cause =>
          exact .failed (List.nil_append _).symm (List.prefix_refl _) succeeded_nil rfl

/-- The callback of a node without children. -/
theorem visits_leaf {a : Address} {e : Expr} {callback : Callback β}
    {r : Except ConversionError β} (h : Notes (.mk callback) runs r)
    (hchildren : e.children = []) (hcallback : e.callback? [] = some callback) :
    Visits [(a, e)] none (fun visits b => Yields visits (a, e) b) runs r := by
  have hnothing : Visits (β := β) [] none (fun _ _ => True) [] (.ok ()) :=
    ⟨[], rfl, trivial, .finished rfl succeeded_nil rfl trivial⟩
  refine Visits.root (.passed hnothing h) fun visits _ _ => ⟨[], hcallback, ?_⟩
  rw [hchildren]
  exact .nil

/-- The trees of a list in turn, from this child on. -/
theorem visits_of_each {a : Address} {i : Nat} {es : List Expr}
    {r : Except ConversionError (List β)} (h : Each VisitsAt (placesFrom a i es) runs r) :
    Visits (occurrencesFrom a i es) (placeholdersAll es).head?
      (fun visits bs => List.Forall₂ (Yields visits) (placesFrom a i es) bs) runs r := by
  induction es generalizing i runs r with
  | nil =>
      obtain ⟨rfl, rfl⟩ := h
      exact ⟨[], rfl, trivial, .finished rfl succeeded_nil rfl .nil⟩
  | cons e es ih =>
      rw [occurrencesFrom, placeholdersAll, List.head?_append]
      have hturns := Then.imp h (fun _ _ h => h) fun b _ _ h =>
        Then.imp h (fun _ _ h => ih h) fun _ _ _ h => h
      exact Visits.both hturns fun visits more b bs hb hbs =>
        .cons hb.left (hbs.imp fun _ _ h => h.right)

end Protocols

section Trees

variable (c : Converter σ β)

/-- A tree visits its occurrences, at whatever address it stands. -/
def VisitsItself (e : Expr) : Prop :=
  ∀ a, Logs (VisitsAt (a, e)) (e.convert c) (e.convert c.recording)

theorem convertAll_eq_mapM (es : List Expr) : convertAll c es = es.mapM (convert c) := by
  induction es with
  | nil => rfl
  | cons e es ih => rw [convertAll, ih, List.mapM_cons]

theorem visits_convertAll {es : List Expr} (ih : ∀ e ∈ es, VisitsItself c e) (a : Address)
    (i : Nat) :
    Logs (Visits (occurrencesFrom a i es) (placeholdersAll es).head? fun visits bs =>
        List.Forall₂ (Yields visits) (placesFrom a i es) bs)
      (convertAll c es) (convertAll c.recording es) := by
  rw [convertAll_eq_mapM, convertAll_eq_mapM]
  refine (logs_mapM ?_).mono fun _ _ => visits_of_each
  induction es generalizing i with
  | nil => exact .nil
  | cons e es hes =>
      refine .cons (ih e List.mem_cons_self _) (hes ?_ (i + 1))
      exact fun d hd => ih d (List.mem_cons_of_mem e hd)

/-- An operation converts both operands and then runs the callback of its operator. -/
theorem convert_binary (op : BinaryOp) (left right : Expr) :
    convert c (.binary op left right) = (do
      modify (c.enter (.binary op left right))
      let p ← (do
        let b ← convert c left
        let b' ← convert c right
        pure (b, b'))
      c.apply (.operation op p.1 p.2)) := by
  simp only [convert, Converter.operation_eq_apply, bind_assoc, pure_bind]

/-- Two steps for a pair of results: the visits split into those of the first step and those of
the second. -/
theorem logs_both {places places' : List Place} {first first' : Option (Placeholder Expr)}
    {made : List (Visit β) → α → Prop} {made' : List (Visit β) → γ → Prop}
    {x : EStateM ConversionError σ α} {y : EStateM ConversionError σ γ}
    {x' : EStateM ConversionError (σ × List (CallbackRun β)) α}
    {y' : EStateM ConversionError (σ × List (CallbackRun β)) γ}
    (hx : Logs (Visits places first made) x x')
    (hy : Logs (Visits places' first' made') y y') :
    Logs (Visits (places ++ places') (first.or first') fun visits p =>
        ∃ before after, visits = before ++ after ∧ made before p.1 ∧ made' after p.2)
      (do let a ← x; let b ← y; pure (a, b)) (do let a ← x'; let b ← y'; pure (a, b)) := by
  have hboth := logs_bind hx fun a => logs_bind hy fun b => logs_pure (a, b)
  refine hboth.mono fun _ _ h => Visits.both h ?_
  exact fun visits more a b ha hb => ⟨visits, more, rfl, ha, hb⟩

/-- A step and then the callback of a node, written down. -/
theorem logs_root {places : List Place} {first : Option (Placeholder Expr)}
    {made : List (Visit β) → α → Prop} {a : Address} {e : Expr} (callback : α → Callback β)
    {x : EStateM ConversionError σ α}
    {x' : EStateM ConversionError (σ × List (CallbackRun β)) α}
    (hx : Logs (Visits places first made) x x')
    (hfed : ∀ visits y, made visits y → ∃ inputs, e.callback? inputs = some (callback y) ∧
      List.Forall₂ (Yields visits) (placesFrom a 0 e.children) inputs) :
    Logs (Visits (places ++ [(a, e)]) first fun visits b => Yields visits (a, e) b)
      (do let y ← x; c.apply (callback y)) (do let y ← x'; c.recording.apply (callback y)) := by
  simp only [Converter.recording_apply]
  exact (logs_bind hx fun y => logs_noting _ _).mono fun _ _ h => Visits.root h hfed

/-- A tree visits its own occurrences. -/
theorem visits_convert (e : Expr) : VisitsItself c e := by
  induction e using child_induction with
  | node e ih =>
      intro a
      have leaf {callback : Callback β} (hchildren : e.children = [])
          (hcallback : e.callback? [] = some callback) :
          Logs (Visits [(a, e)] none fun visits b => Yields visits (a, e) b)
            (c.apply callback) (c.recording.apply callback) := by
        rw [Converter.recording_apply]
        exact (logs_noting _ _).mono fun _ _ h => visits_leaf h hchildren hcallback
      match e with
      | .constant (.string s) => exact logs_modify _ (leaf rfl rfl)
      | .constant (.number d) => exact logs_modify _ (leaf rfl rfl)
      | .constant (.set members) =>
          refine logs_modify _ (logs_root c .set (visits_convertAll c ih a 0) ?_)
          exact fun visits bs hbs => ⟨bs, rfl, hbs⟩
      | .placeholder p =>
          refine logs_modify _ ((logs_throw _).mono ?_)
          rintro _ _ ⟨rfl, rfl⟩
          rw [VisitsAt, placeholders_placeholder, List.head?_cons]
          exact ⟨[], rfl, trivial, .unbound (List.prefix_refl _) succeeded_nil rfl⟩
      | .variable path template => exact logs_modify _ (leaf rfl rfl)
      | .call path template arguments =>
          refine logs_modify _ (logs_root c (.call path template) (visits_convertAll c ih a 0) ?_)
          exact fun visits bs hbs => ⟨bs, rfl, hbs⟩
      | .not operand =>
          have hoperand := ih operand (by simp [children]) (a ++ [0])
          refine logs_modify _ (logs_root c .negation hoperand ?_)
          exact fun visits b hb => ⟨[b], rfl, .cons hb .nil⟩
      | .binary op left right =>
          have hleft := ih left (by simp [children]) (a ++ [0])
          have hright := ih right (by simp [children]) (a ++ [1])
          rw [VisitsAt, occurrences, placeholders, List.head?_append, ← List.append_assoc,
            convert_binary, convert_binary]
          refine logs_modify _
            (logs_root c (fun p => .operation op p.1 p.2) (logs_both hleft hright) ?_)
          rintro _ p ⟨before, after, rfl, hb, hb'⟩
          exact ⟨[p.1, p.2], rfl, .cons hb.left (.cons hb'.right .nil)⟩

/-- The calls of a conversion, from the first to the last, and what comes of them: they are
for the first nodes of the postorder, one for each occurrence, and each is fed by those before
it. -/
theorem convert_visits (e : Expr) (s : σ) :
    ∃ visits : List (Visit β),
      e.convert c.recording (s, []) = withLog (visits.map Visit.run) (e.convert c s) ∧
        (visits.map fun v => v.place.2) <+: e.postorder ∧
        (visits.map fun v => v.place.1).Nodup ∧ FedFrom [] visits ∧
        Ended (e.occurrences []) e.placeholders.head? (Yields visits ([], e)) visits
          (answer (e.convert c s)) := by
  obtain ⟨runs, hrun, visits, rfl, hfed, hended⟩ := visits_convert c e [] s []
  have hvisited : visits.map Visit.place <+: e.occurrences [] := hended.isPrefix
  refine ⟨visits, hrun, ?_, ?_, hfed, hended⟩
  · have hnodes := hvisited.map Prod.snd
    rw [List.map_map] at hnodes
    rw [← map_snd_occurrences []]
    exact hnodes
  · have haddresses := (hvisited.map Prod.fst).sublist
    rw [List.map_map] at haddresses
    exact haddresses.nodup (nodup_occurrences [] e)

end Trees

end Conversion
end Criteria
