import Criteria.Conversion.Basic
import Criteria.Json

/-!
# Dumps

The JSON document of a bound tree: one object for each node, tagged with its type.
Numbers are written as texts, so no digit is lost.  Variables and calls carry their
qualified name, and the path they were bound from where it is another.

**Results.**
* `operation_dumper`: each operator has the document with its own name.
-/

namespace Criteria

/-- An object with its type and further fields. -/
def typedObject (type : String) (fields : List (String × Json)) : Json :=
  .object (("type", .string type) :: fields)

/-- The path a node was bound from, unless it is the qualified name. -/
def pathField (path qualifiedName : Path) : List (String × Json) :=
  if path = qualifiedName then [] else [("path", .string path.render)]

/-- Makes the document of an operation. -/
def dumpOperation {σ : Type} (op : BinaryOp) (left right : Json) :
    EStateM ConversionError σ Json :=
  pure (typedObject op.name [("left", left), ("right", right)])

/-- Makes the document of each node. -/
def dumper {σ : Type} : Converter σ Json where
  string s := pure (typedObject "String" [("value", .string s)])
  number d := pure (typedObject "Number" [("value", .string d.render)])
  set members := pure (typedObject "Set" [("members", .array members)])
  reference path template :=
    pure (typedObject "Variable"
      (("name", .string template.qualifiedName.render) ::
        pathField path template.qualifiedName))
  call path template arguments :=
    pure (typedObject "Function"
      (("name", .string template.qualifiedName.render) ::
        ("arguments", .array arguments) :: pathField path template.qualifiedName))
  negation operand := pure (typedObject "Not" [("operand", operand)])
  and := dumpOperation .and
  or := dumpOperation .or
  xor := dumpOperation .xor
  equal := dumpOperation .equal
  notEqual := dumpOperation .notEqual
  lessThan := dumpOperation .lessThan
  greaterThan := dumpOperation .greaterThan
  lessOrEqual := dumpOperation .lessOrEqual
  greaterOrEqual := dumpOperation .greaterOrEqual
  belongsTo := dumpOperation .belongsTo
  isSubset := dumpOperation .isSubset

/-- Each operator has the document with its own name. -/
theorem operation_dumper {σ : Type} (op : BinaryOp) :
    (dumper : Converter σ Json).operation op = dumpOperation op := by
  cases op <;> rfl

/-- The document of a bound tree. -/
def Expr.dump (e : Expr) : Except ConversionError Json :=
  match e.convert dumper () with
  | .ok j _ => .ok j
  | .error cause _ => .error cause

end Criteria
