import Criteria.Conversion.Dump
import Criteria.Proofs.DottedNames
import Criteria.Proofs.Outcome
import Criteria.Proofs.Outline
import Mathlib.Data.List.Forall2

/-!
# Dumps lose nothing

A document is read back field by field, by the names of the fields, so that their order does
not matter.  What is read from the dump of a bound tree is the content of the tree: its nodes
with their operands, members and arguments in order, texts, numbers as they are written, and
for each variable and each call the qualified name together with the path it was bound from.
The field for the path is left out when it would repeat the name; then the name is read.

**Results.**
* `read_same`: the same value is read from documents that differ in the order of fields.
* `readable`: a bound tree has a document, and its content is read from there.
* `decode_dump`: the dump of a tree can be decoded, and from the same document no other
  content is decoded.
-/

namespace Criteria

/-- The content of a bound tree. -/
abbrev Content : Type :=
  Outline (Path × Option Path)

namespace Json

/-- Two documents are the same value: arrays are compared in order, and objects by what stands
under each name. -/
inductive Same : Json → Json → Prop
  | refl (j : Json) : Same j j
  | array {js ks : List Json} : List.Forall₂ Same js ks → Same (.array js) (.array ks)
  | object {fields fields' : List (String × Json)} :
      (∀ name, Option.Rel Same (fields.lookup name) (fields'.lookup name)) →
        Same (.object fields) (.object fields')

/-- What a document is read as. -/
inductive Reading where
  | text (s : String)
  | trees (contents : List Content)
  | tree (content : Content)
  | unreadable

namespace Reading

def text? : Reading → Option String
  | text s => some s
  | _ => none

def trees? : Reading → Option (List Content)
  | trees contents => some contents
  | _ => none

def tree? : Reading → Option Content
  | tree content => some content
  | _ => none

def path? (r : Reading) : Option Path :=
  r.text?.bind fun s => (Path.parse s).toOption

@[simp] theorem text?_text (s : String) : (text s).text? = some s := rfl

@[simp] theorem trees?_trees (contents : List Content) :
    (trees contents).trees? = some contents := rfl

@[simp] theorem tree?_tree (content : Content) : (tree content).tree? = some content := rfl

theorem path?_text {p : Path} (h : p.Valid) : (text p.render).path? = some p := by
  simp [path?, Path.parse_render h, Except.toOption]

end Reading

section Fields

/-- The path a node was bound from and its qualified name. -/
def label? (field : String → Option Reading) : Option (Path × Option Path) := do
  let qualified ← (field "name").bind Reading.path?
  match field "path" with
  | none => some (qualified, some qualified)
  | some written => do
      let path ← written.path?
      some (path, some qualified)

/-- The content that an object stands for, by its type. -/
def content? (field : String → Option Reading) : Option Content := do
  let type ← (field "type").bind Reading.text?
  match type with
  | "String" => (field "value").bind Reading.text? |>.map .string
  | "Number" => (field "value").bind Reading.text? |>.map .number
  | "Set" => (field "members").bind Reading.trees? |>.map .set
  | "Variable" => (label? field).map .name
  | "Function" => do
      let label ← label? field
      let arguments ← (field "arguments").bind Reading.trees?
      some (.call label arguments)
  | "Not" => (field "operand").bind Reading.tree? |>.map .not
  | name => do
      let op ← BinaryOp.ofName? name
      let left ← (field "left").bind Reading.tree?
      let right ← (field "right").bind Reading.tree?
      some (.binary op left right)

end Fields

mutual

/-- Reads a document. -/
def read : Json → Reading
  | .string s => .text s
  | .array items => ((readAll items).map Reading.trees).getD .unreadable
  | .object fields =>
      ((content? fun name => (readFields fields).lookup name).map Reading.tree).getD .unreadable
  | _ => .unreadable

/-- Reads the documents of trees. -/
def readAll : List Json → Option (List Content)
  | [] => some []
  | j :: js => do
      let first ← (read j).tree?
      let rest ← readAll js
      some (first :: rest)

/-- Reads the documents in the fields of an object. -/
def readFields : List (String × Json) → List (String × Reading)
  | [] => []
  | (name, j) :: fields => (name, read j) :: readFields fields

end

/-- The content of the tree that a document was dumped from. -/
def decode (j : Json) : Option Content :=
  (read j).tree?

section Order

@[simp] theorem read_string (s : String) : read (.string s) = .text s := rfl

theorem lookup_readFields (fields : List (String × Json)) (name : String) :
    (readFields fields).lookup name = (fields.lookup name).map read := by
  induction fields with
  | nil => rfl
  | cons first fields ih =>
      obtain ⟨other, j⟩ := first
      rw [readFields, List.lookup_cons, List.lookup_cons]
      split
      · rfl
      · exact ih

/-- What the field of an object with this name is read as. -/
def readField (fields : List (String × Json)) (name : String) : Option Reading :=
  (fields.lookup name).map read

theorem read_object (fields : List (String × Json)) :
    read (.object fields) =
      ((content? (readField fields)).map Reading.tree).getD .unreadable := by
  rw [read]
  congr 3
  funext name
  exact lookup_readFields fields name

theorem read_of_content? {fields : List (String × Json)} {content : Content}
    (h : content? (readField fields) = some content) :
    read (.object fields) = .tree content := by
  rw [read_object, h]
  rfl

mutual

/-- The same value is read from documents that differ in the order of fields. -/
theorem read_same : ∀ {j k : Json}, j.Same k → read j = read k
  | _, _, .refl _ => rfl
  | .array js, _, .array hitems => by
      rw [read, read, readAll_same js hitems]
  | .object fields, .object fields', .object hfields => by
      have hread : readField fields = readField fields' := by
        funext name
        have hname := hfields name
        rw [readField, readField]
        generalize hj : fields.lookup name = field, fields'.lookup name = field' at hname ⊢
        cases hname with
        | none => rfl
        | some hsame => exact congrArg some (read_field_same fields hj hsame)
      rw [read_object, read_object, hread]

theorem readAll_same : ∀ (js : List Json) {ks : List Json}, List.Forall₂ Same js ks →
    readAll js = readAll ks
  | [], _, .nil => rfl
  | j :: js, _, .cons hfirst hrest => by
      rw [readAll, readAll, read_same hfirst, readAll_same js hrest]

theorem read_field_same : ∀ (fields : List (String × Json)) {name : String} {j k : Json},
    fields.lookup name = some j → j.Same k → read j = read k
  | [], _, _, _, h, _ => by cases h
  | (other, i) :: fields, name, j, k, h, hsame => by
      rw [List.lookup_cons] at h
      split at h
      · cases h
        exact read_same hsame
      · exact read_field_same fields h hsame

end

end Order

section Objects

variable {field : String → Option Reading} {path qualified : Path}

theorem lookup_pathField :
    ((pathField path qualified).lookup "path").map read =
      if path = qualified then none else some (.text path.render) := by
  rw [pathField]
  split
  · rfl
  · simp

/-- Both paths are read, whether or not the one that the node was bound from is left out. -/
theorem label?_eq (hpath : path.Valid) (hqualified : qualified.Valid)
    (hname : field "name" = some (.text qualified.render))
    (hfrom : field "path" = ((pathField path qualified).lookup "path").map read) :
    label? field = some (path, some qualified) := by
  rw [lookup_pathField] at hfrom
  by_cases h : path = qualified
  · rw [if_pos h] at hfrom
    simp [label?, hname, hfrom, Reading.path?_text hqualified, h]
  · rw [if_neg h] at hfrom
    simp [label?, hname, hfrom, Reading.path?_text hqualified, Reading.path?_text hpath]

theorem content?_set {contents : List Content} (htype : field "type" = some (.text "Set"))
    (hmembers : field "members" = some (.trees contents)) :
    content? field = some (.set contents) := by
  simp [content?, htype, hmembers]

theorem content?_variable {label : Path × Option Path}
    (htype : field "type" = some (.text "Variable")) (hlabel : label? field = some label) :
    content? field = some (.name label) := by
  simp [content?, htype, hlabel]

theorem content?_call {label : Path × Option Path} {contents : List Content}
    (htype : field "type" = some (.text "Function")) (hlabel : label? field = some label)
    (harguments : field "arguments" = some (.trees contents)) :
    content? field = some (.call label contents) := by
  simp [content?, htype, hlabel, harguments]

theorem content?_not {content : Content} (htype : field "type" = some (.text "Not"))
    (hoperand : field "operand" = some (.tree content)) :
    content? field = some (.not content) := by
  simp [content?, htype, hoperand]

/-- No operator has the name of another kind of node, so its own name tells it. -/
theorem content?_operation {op : BinaryOp} {left right : Content}
    (htype : field "type" = some (.text op.name)) (hleft : field "left" = some (.tree left))
    (hright : field "right" = some (.tree right)) :
    content? field = some (.binary op left right) := by
  cases op <;>
    simp [content?, htype, hleft, hright, BinaryOp.name, BinaryOp.ofName?, BinaryOp.all]

end Objects

end Json

namespace Expr

open Json Outcome

/-- The path that a name stands under and its qualified name are valid. -/
def NamedValidly : Expr → Prop
  | .variable path template => path.Valid ∧ template.qualifiedName.Valid
  | .call path template _ => path.Valid ∧ template.qualifiedName.Valid
  | _ => True

instance : DecidablePred NamedValidly
  | .constant _ => isTrue trivial
  | .placeholder _ => isTrue trivial
  | .variable path template =>
      inferInstanceAs (Decidable (path.Valid ∧ template.qualifiedName.Valid))
  | .call path template _ =>
      inferInstanceAs (Decidable (path.Valid ∧ template.qualifiedName.Valid))
  | .not _ => isTrue trivial
  | .binary _ _ _ => isTrue trivial

section Dumps

/-- A tree has a document, and its content is read from there. -/
def Readable (e : Expr) : Prop :=
  ∃ j, e.convert dumper () = .ok j () ∧ read j = .tree e.content

theorem readAll_of_readable {es : List Expr} (h : ∀ e ∈ es, e.Readable) :
    ∃ js, convertAll dumper es () = .ok js () ∧
      readAll js = some (outlineAll (fun written qualified => (written, qualified)) es) := by
  induction es with
  | nil => exact ⟨[], rfl, rfl⟩
  | cons e es ih =>
      obtain ⟨j, hj, hread⟩ := h e List.mem_cons_self
      obtain ⟨js, hjs, hreads⟩ := ih fun d hd => h d (List.mem_cons_of_mem _ hd)
      refine ⟨j :: js, ?_, ?_⟩
      · rw [convertAll, run_bind_of_ok hj, run_bind_of_ok hjs]
        rfl
      · simp [readAll, hread, hreads, Reading.tree?, outlineAll]

theorem readable {e : Expr} (hbound : e.isBound = true) (hnamed : e.Everywhere NamedValidly) :
    e.Readable := by
  induction e using child_induction with
  | node e ih =>
      have hself := hnamed.self
      have hchild {c : Expr} (hc : c ∈ e.children) : c.Readable :=
        ih c hc (isBound_of_mem_children hbound hc) (hnamed.child hc)
      match e with
      | .constant (.string s) => exact ⟨_, rfl, rfl⟩
      | .constant (.number d) => exact ⟨_, rfl, rfl⟩
      | .constant (.set members) =>
          have hmembers : ∀ c ∈ members, c.Readable := fun c hc => hchild hc
          obtain ⟨js, hjs, hread⟩ := readAll_of_readable hmembers
          refine ⟨_, run_bind_of_ok hjs, read_of_content? (content?_set rfl ?_)⟩
          simp [readField, List.lookup_cons, Json.read, hread]
      | .placeholder p => cases hbound
      | .variable path template =>
          refine ⟨_, rfl, read_of_content? (content?_variable rfl ?_)⟩
          exact label?_eq hself.1 hself.2 rfl rfl
      | .call path template arguments =>
          have harguments : ∀ c ∈ arguments, c.Readable := fun c hc => hchild hc
          obtain ⟨js, hjs, hread⟩ := readAll_of_readable harguments
          refine ⟨_, run_bind_of_ok hjs, read_of_content? (content?_call rfl ?_ ?_)⟩
          · exact label?_eq hself.1 hself.2 rfl rfl
          · simp [readField, List.lookup_cons, Json.read, hread]
      | .not operand =>
          obtain ⟨j, hj, hread⟩ := hchild (c := operand) (by simp [children])
          refine ⟨_, run_bind_of_ok hj, read_of_content? (content?_not rfl ?_)⟩
          simp [readField, List.lookup_cons, hread]
      | .binary op left right =>
          obtain ⟨j, hj, hread⟩ := hchild (c := left) (by simp [children])
          obtain ⟨k, hk, hread'⟩ := hchild (c := right) (by simp [children])
          have hrun : (dumper : Converter Unit Json).operation op j k () =
              .ok (typedObject op.name [("left", j), ("right", k)]) () := by
            rw [operation_dumper]
            rfl
          refine ⟨_, (run_bind_of_ok hj).trans ((run_bind_of_ok hk).trans hrun),
            read_of_content? (content?_operation rfl ?_ ?_)⟩
          · simp [readField, List.lookup_cons, hread]
          · simp [readField, List.lookup_cons, hread']

theorem dump_of_convert {e : Expr} {j : Json} (h : e.convert dumper () = .ok j ()) :
    e.dump = .ok j := by
  rw [dump, h]

/-- Nothing of a bound tree is lost in its dump: there is one, its content is decoded from it,
and a tree whose dump is the same value has the same content. -/
theorem decode_dump {a : Expr} (hbound : a.isBound = true)
    (hnamed : a.Everywhere NamedValidly) :
    ∃ j, a.dump = .ok j ∧ j.decode = some a.content ∧
      ∀ b : Expr, b.isBound = true → b.Everywhere NamedValidly →
        ∀ k, b.dump = .ok k → j.Same k → a.content = b.content := by
  obtain ⟨j, hj, hread⟩ := readable hbound hnamed
  refine ⟨j, dump_of_convert hj, congrArg Reading.tree? hread, ?_⟩
  intro b hbound' hnamed' k hk hsame
  obtain ⟨k', hk', hread'⟩ := readable hbound' hnamed'
  rw [dump_of_convert hk'] at hk
  cases hk
  rw [read_same hsame, hread'] at hread
  exact (Reading.tree.inj hread).symm

/-- A variable that was bound from a localized path, compared with one number that is written
in two ways: the dumps are different values. -/
theorem decode_dump_scale :
    let total : VariableTemplate := ⟨⟨["cart", "total"]⟩, some .number⟩
    let below (d : Decimal) : Expr :=
      .binary .lessThan (.variable ⟨["carrito", "total"]⟩ total) (.number d)
    let a := below ⟨295, 1⟩
    let b := below ⟨2950, 2⟩
    a.isBound = true ∧ a.Everywhere NamedValidly ∧
      ∃ j k, a.dump = .ok j ∧ b.dump = .ok k ∧ j.decode = some a.content ∧ ¬j.Same k := by
  intro total below a b
  have hbound : a.isBound = true := by decide
  have hnamed : a.Everywhere NamedValidly := by decide
  obtain ⟨j, hj, hdecode, hsame⟩ := decode_dump hbound hnamed
  refine ⟨hbound, hnamed, j, _, hj, rfl, hdecode, fun h => ?_⟩
  have hcontent := hsame b (by decide) (by decide) _ rfl h
  injection hcontent with _ _ hnumber
  injection hnumber with hwritten
  exact absurd hwritten (by decide)

end Dumps

end Expr
end Criteria
