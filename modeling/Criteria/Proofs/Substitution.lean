import Criteria.Proofs.Members
import Criteria.Proofs.Target

/-!
# Plain substitution

The binder leaves the parts of a tree that hold no placeholder as they are.  Plain
substitution knows no such shortcut: it rebuilds every node from its substituted
children.  On trees whose set literals have been built the two agree, because building
such a literal again changes nothing.

**Results.**
* `replacePlaceholders_eq_instantiate`: the binder substitutes plainly.
* `bind_eq_instantiate`: binding is plain substitution followed by the checks.
* `rebuilt_of_instantiate`, `instantiate_of_rebuilt`: what plain substitution makes of each
  node.
* `built_instantiate`: what is put together from built trees is built.
-/

namespace Criteria

open Outcome

/-- The set literals in the defaults of a template have been built. -/
def Symbol.Built : Symbol → Prop
  | .variable _ => True
  | .function template => ∀ c ∈ template.defaults, (Expr.constant c).Built

namespace Expr

section Instantiate

variable (space : Namespace) (locale : Option String)

mutual

/-- The tree with its placeholders replaced, every node being built anew. -/
def instantiate : Expr → Except BindingError Expr
  | .constant (.set members) => do
      let members ← instantiateAll members
      (ofMembers members).mapError .construction
  | .constant (.string s) => pure (.string s)
  | .constant (.number d) => pure (.number d)
  | .placeholder ⟨scope, name, none⟩ => do
      let (path, symbol) ← Placeholder.target space locale ⟨scope, name, none⟩
      ofTarget path [] symbol
  | .placeholder ⟨scope, name, some arguments⟩ => do
      let (path, symbol) ←
        Placeholder.target space locale ⟨scope, name, some arguments⟩
      let arguments ← instantiateAll arguments
      ofTarget path arguments symbol
  | .variable path template => pure (.variable path template)
  | .call path template arguments => do
      let arguments ← instantiateAll arguments
      pure (.call path template arguments)
  | .not operand => do
      let operand ← instantiate operand
      pure (.not operand)
  | .binary op left right => do
      let left ← instantiate left
      let right ← instantiate right
      pure (.binary op left right)

/-- The trees of a list with their placeholders replaced. -/
def instantiateAll : List Expr → Except BindingError (List Expr)
  | [] => pure []
  | e :: es => do
      let e ← instantiate e
      let es ← instantiateAll es
      pure (e :: es)

end

variable {space : Namespace} {locale : Option String}

theorem instantiateAll_eq_ok_iff {es us : List Expr} :
    instantiateAll space locale es = .ok us ↔
      List.Forall₂ (fun e u => e.instantiate space locale = .ok u) es us := by
  induction es generalizing us with
  | nil => simp [instantiateAll, pure, Except.pure, eq_comm]
  | cons e es ih =>
      rw [instantiateAll, bind_eq_ok_iff]
      constructor
      · rintro ⟨u, hu, h⟩
        obtain ⟨vs, hvs, h⟩ := bind_eq_ok_iff.mp h
        cases h
        exact List.Forall₂.cons hu (ih.mp hvs)
      · intro h
        cases h with
        | cons hu hvs =>
            exact ⟨_, hu, bind_eq_ok_iff.mpr ⟨_, ih.mpr hvs, rfl⟩⟩

/-- The trees of a list are replaced as plainly as each of them. -/
theorem substituteAll_eq {es : List Expr}
    (h : ∀ e ∈ es, e.instantiate space locale =
      (e.substitute space locale).map fun changed => changed.getD e) :
    instantiateAll space locale es =
      (substituteAll space locale es).map fun changed => changed.getD es := by
  induction es with
  | nil => rfl
  | cons e es ih =>
      have hrest := ih fun x hx => h x (List.mem_cons_of_mem e hx)
      rw [instantiateAll, substituteAll, h e List.mem_cons_self, hrest]
      cases substitute space locale e with
      | error _ => rfl
      | ok first =>
          cases substituteAll space locale es with
          | error _ => rfl
          | ok rest => cases first <;> cases rest <;> rfl

/-- The binder substitutes plainly: it leaves alone only what substitution would build
again as it is. -/
theorem instantiate_eq_substitute {e : Expr} (he : e.Built) :
    e.instantiate space locale =
      (e.substitute space locale).map fun changed => changed.getD e := by
  induction he with
  | @node e hhere hparts ih =>
      match e with
      | .constant (.string _) => rfl
      | .constant (.number _) => rfl
      | .constant (.set members) =>
          have hself := ofMembers_eq_self hhere
          rw [instantiate, substitute,
            substituteAll_eq fun x (hx : x ∈ members) => ih x hx]
          cases substituteAll space locale members with
          | error _ => rfl
          | ok changed =>
              cases changed with
              | none =>
                  show (ofMembers members).mapError BindingError.construction = _
                  rw [hself]
                  rfl
              | some members =>
                  show (ofMembers members).mapError BindingError.construction =
                    Except.map _ ((ofMembers members).mapError _ >>= _)
                  cases ofMembers members <;> rfl
      | .placeholder ⟨scope, name, none⟩ =>
          rw [instantiate, substitute]
          cases Placeholder.target space locale ⟨scope, name, none⟩ with
          | error _ => rfl
          | ok found =>
              obtain ⟨path, symbol⟩ := found
              show ofTarget path [] symbol = Except.map _ (ofTarget path [] symbol >>= _)
              cases ofTarget path [] symbol <;> rfl
      | .placeholder ⟨scope, name, some arguments⟩ =>
          rw [instantiate, substitute,
            substituteAll_eq fun x (hx : x ∈ arguments) => ih x hx]
          cases Placeholder.target space locale ⟨scope, name, some arguments⟩ with
          | error _ => rfl
          | ok found =>
              obtain ⟨path, symbol⟩ := found
              cases substituteAll space locale arguments with
              | error _ => rfl
              | ok changed =>
                  show ofTarget path (changed.getD arguments) symbol =
                    Except.map _ (ofTarget path (changed.getD arguments) symbol >>= _)
                  cases ofTarget path (changed.getD arguments) symbol <;> rfl
      | .variable _ _ => rfl
      | .call path template arguments =>
          rw [instantiate, substitute,
            substituteAll_eq fun x hx => ih x (argument_mem_parts hx)]
          cases substituteAll space locale arguments with
          | error _ => rfl
          | ok changed => cases changed <;> rfl
      | .not operand =>
          rw [instantiate, substitute, ih operand (operand_mem_parts operand)]
          cases substitute space locale operand with
          | error _ => rfl
          | ok changed => cases changed <;> rfl
      | .binary op left right =>
          rw [instantiate, substitute, ih left (left_mem_parts op left right),
            ih right (right_mem_parts op left right)]
          cases substitute space locale left with
          | error _ => rfl
          | ok newLeft =>
              cases substitute space locale right with
              | error _ => rfl
              | ok newRight => cases newLeft <;> cases newRight <;> rfl

theorem replacePlaceholders_eq_instantiate {e : Expr} (he : e.Built) :
    e.replacePlaceholders space locale = e.instantiate space locale := by
  rw [instantiate_eq_substitute he, replacePlaceholders]
  cases substitute space locale e <;> rfl

/-- Binding is plain substitution followed by the checks. -/
theorem bind_eq_instantiate {e : Expr} (he : e.Built) :
    e.bind space locale = (e.instantiate space locale >>= fun u =>
      ((check u).mapError .type).map fun _ => u) := by
  rw [bind, replacePlaceholders_eq_instantiate he]
  cases e.instantiate space locale with
  | error _ => rfl
  | ok u =>
      show ((check u).mapError BindingError.type >>= fun _ => pure u) =
        ((check u).mapError BindingError.type).map fun _ => u
      cases check u <;> rfl

theorem bind_eq_ok_iff_instantiate {e u : Expr} (he : e.Built) :
    e.bind space locale = .ok u ↔
      e.instantiate space locale = .ok u ∧ check u = .ok () := by
  rw [bind_eq_instantiate he, bind_eq_ok_iff]
  constructor
  · rintro ⟨v, hv, h⟩
    cases hcheck : check v with
    | error cause =>
        rw [hcheck] at h
        cases h
    | ok _ =>
        rw [hcheck] at h
        cases h
        exact ⟨hv, hcheck⟩
  · rintro ⟨hu, hcheck⟩
    refine ⟨u, hu, ?_⟩
    rw [hcheck]
    rfl

end Instantiate

section Rebuilding

variable (space : Namespace) (locale : Option String)

/-- What plain substitution makes of a node. -/
inductive Rebuilt : Expr → Expr → Prop
  | string (s : String) : Rebuilt (.string s) (.string s)
  | number (d : Decimal) : Rebuilt (.number d) (.number d)
  | set {members us kept : List Expr}
      (hall : List.Forall₂ (fun e u => e.instantiate space locale = .ok u) members us)
      (hkept : Distinct.collect isSet us = .ok kept) :
      Rebuilt (.set members) (.set kept)
  | name {scope : List String} {name path : Path} {template : VariableTemplate}
      (htarget : Placeholder.target space locale ⟨scope, name, none⟩ =
        .ok (path, .variable template)) :
      Rebuilt (.placeholder ⟨scope, name, none⟩) (.variable path template)
  | request {p : Placeholder Expr} {path : Path} {template : FunctionTemplate Expr}
      {us : List Expr}
      (htarget : p.target space locale = .ok (path, .function template))
      (hall : List.Forall₂ (fun e u => e.instantiate space locale = .ok u)
        p.argumentList us) :
      Rebuilt (.placeholder p) (.call path template (us ++
        (template.defaults.drop (p.argumentList.length - template.least)).map constant))
  | variable (path : Path) (template : VariableTemplate) :
      Rebuilt (.variable path template) (.variable path template)
  | call (path : Path) (template : FunctionTemplate Expr) {arguments us : List Expr}
      (hall : List.Forall₂ (fun e u => e.instantiate space locale = .ok u)
        arguments us) :
      Rebuilt (.call path template arguments) (.call path template us)
  | not {operand u : Expr} (h : operand.instantiate space locale = .ok u) :
      Rebuilt (.not operand) (.not u)
  | binary (op : BinaryOp) {left right u v : Expr}
      (hl : left.instantiate space locale = .ok u)
      (hr : right.instantiate space locale = .ok v) :
      Rebuilt (.binary op left right) (.binary op u v)

variable {space locale}

theorem rebuilt_of_instantiate {e u : Expr} (h : e.instantiate space locale = .ok u) :
    Rebuilt space locale e u := by
  match e with
  | .constant (.string s) =>
      cases h
      exact Rebuilt.string s
  | .constant (.number d) =>
      cases h
      exact Rebuilt.number d
  | .constant (.set members) =>
      rw [instantiate, bind_eq_ok_iff] at h
      obtain ⟨us, hus, h⟩ := h
      obtain ⟨kept, hkept, rfl⟩ := ofMembers_eq_ok_iff.mp (mapError_eq_ok_iff.mp h)
      exact Rebuilt.set (instantiateAll_eq_ok_iff.mp hus) hkept
  | .placeholder ⟨scope, name, none⟩ =>
      rw [instantiate, bind_eq_ok_iff] at h
      obtain ⟨⟨path, symbol⟩, htarget, h⟩ := h
      cases symbol with
      | «variable» template =>
          cases h
          exact Rebuilt.name htarget
      | function template =>
          obtain ⟨-, rfl⟩ := ofTarget_function_eq_ok_iff.mp h
          exact Rebuilt.request htarget List.Forall₂.nil
  | .placeholder ⟨scope, name, some arguments⟩ =>
      rw [instantiate, bind_eq_ok_iff] at h
      obtain ⟨⟨path, symbol⟩, htarget, h⟩ := h
      obtain ⟨us, hus, h⟩ := bind_eq_ok_iff.mp h
      have hall := instantiateAll_eq_ok_iff.mp hus
      cases symbol with
      | «variable» template =>
          -- A variable takes no arguments, so the target is refused.
          have hsuits := (Placeholder.target_eq_ok_iff.mp htarget).2.2.2
          cases hsuits
      | function template =>
          obtain ⟨-, rfl⟩ := ofTarget_function_eq_ok_iff.mp h
          rw [← hall.length_eq]
          exact Rebuilt.request htarget hall
  | .variable path template =>
      cases h
      exact Rebuilt.variable path template
  | .call path template arguments =>
      rw [instantiate, bind_eq_ok_iff] at h
      obtain ⟨us, hus, h⟩ := h
      cases h
      exact Rebuilt.call path template (instantiateAll_eq_ok_iff.mp hus)
  | .not operand =>
      rw [instantiate, bind_eq_ok_iff] at h
      obtain ⟨u, hu, h⟩ := h
      cases h
      exact Rebuilt.not hu
  | .binary op left right =>
      rw [instantiate, bind_eq_ok_iff] at h
      obtain ⟨u, hu, h⟩ := h
      obtain ⟨v, hv, h⟩ := bind_eq_ok_iff.mp h
      cases h
      exact Rebuilt.binary op hu hv

theorem instantiate_of_rebuilt {e u : Expr} (h : Rebuilt space locale e u) :
    e.instantiate space locale = .ok u := by
  cases h with
  | string s => rfl
  | number d => rfl
  | @set members us kept hall hkept =>
      rw [instantiate, instantiateAll_eq_ok_iff.mpr hall]
      exact mapError_eq_ok_iff.mpr (ofMembers_eq_ok_iff.mpr ⟨kept, hkept, rfl⟩)
  | name htarget =>
      rw [instantiate, htarget]
      rfl
  | @request p path template us htarget hall =>
      have hsuits := (Placeholder.target_eq_ok_iff.mp htarget).2.2.2
      rw [Placeholder.Suits, hall.length_eq] at hsuits
      have hcomplete : ofTarget path us (.function template) = .ok (.call path template
          (us ++ (template.defaults.drop
            (p.argumentList.length - template.least)).map constant)) :=
        ofTarget_function_eq_ok_iff.mpr ⟨hsuits, by rw [hall.length_eq]⟩
      obtain ⟨scope, name, _ | arguments⟩ := p
      · cases hall
        rw [instantiate, htarget]
        exact hcomplete
      · have harguments : instantiateAll space locale arguments = .ok us :=
          instantiateAll_eq_ok_iff.mpr hall
        rw [instantiate, htarget]
        exact bind_eq_ok_iff.mpr ⟨(path, .function template), rfl,
          bind_eq_ok_iff.mpr ⟨us, harguments, hcomplete⟩⟩
  | «variable» path template => rfl
  | call path template hall =>
      rw [instantiate, instantiateAll_eq_ok_iff.mpr hall]
      rfl
  | not hu =>
      rw [instantiate, hu]
      rfl
  | binary op hl hr =>
      rw [instantiate, hl, hr]
      rfl

theorem built_of_forall₂ {es us : List Expr}
    (hall : List.Forall₂ (fun e u => e.instantiate space locale = .ok u) es us)
    (h : ∀ e ∈ es, ∀ u, e.instantiate space locale = .ok u → u.Built) :
    ∀ u ∈ us, u.Built := by
  intro u hu
  obtain ⟨e, he, heu⟩ := exists_left_of_forall₂ hall hu
  exact h e he u heu

/-- Substitution into a built tree gives a built tree, when the symbols that it finds are
built. -/
theorem built_instantiate
    (hspace : ∀ segments symbol, space.resolve locale segments = some symbol →
      symbol.Built)
    {e u : Expr} (he : e.Built) (h : e.instantiate space locale = .ok u) :
    u.Built := by
  induction he generalizing u with
  | @node e hhere hparts ih =>
      cases rebuilt_of_instantiate h with
      | string s => exact Built.node trivial hparts
      | number d => exact Built.node trivial hparts
      | @set members us kept hall hkept =>
          exact built_ofMembers (built_of_forall₂ hall fun e he u hu => ih e he hu)
            (ofMembers_eq_ok_iff.mpr ⟨kept, hkept, rfl⟩)
      | name htarget => exact Built.node trivial (by simp [parts, children])
      | request htarget hall =>
          have hdefaults := hspace _ _ (Placeholder.target_eq_ok_iff.mp htarget).1
          refine built_call (List.forall_mem_append.mpr ⟨?_, ?_⟩) hdefaults
          · exact built_of_forall₂ hall fun e he u hu => ih e he hu
          · rw [List.forall_mem_map]
            exact fun c hc => hdefaults c (List.mem_of_mem_drop hc)
      | «variable» path template => exact Built.node trivial hparts
      | call path template hall =>
          refine built_call ?_ fun c hc =>
            hparts _ (List.mem_append_right _ (List.mem_map_of_mem hc))
          exact built_of_forall₂ hall fun e he u hu => ih e (argument_mem_parts he) hu
      | not hu => exact built_not (ih _ (operand_mem_parts _) hu)
      | binary op hl hr =>
          exact built_binary op (ih _ (left_mem_parts op _ _) hl)
            (ih _ (right_mem_parts op _ _) hr)

end Rebuilding

end Expr
end Criteria
