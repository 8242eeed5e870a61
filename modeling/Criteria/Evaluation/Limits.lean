import Criteria.Json

/-!
# Limits of an evaluation

How deep an evaluation goes into a tree.  The limits are stored as a JSON object, and
read also from an array of their values.

**Results.**
* `ofJson?_toJson`: limits below the greatest that can be stored are read back.
* `ofJson?_array`: an array stores what the object with its value as a field stores.
-/

namespace Criteria

/-- The deepest level that an evaluation enters, the root being level one. -/
structure Limits where
  maxDepth : Nat := 256
deriving DecidableEq

namespace Limits

/-- The number of depths that can be stored. -/
def depthBound : Nat :=
  UInt64.size

def toJson (l : Limits) : Json :=
  .object [("max_depth", .integer l.maxDepth)]

/-- The limits with a stored depth. -/
def ofDepth? (depth : Json) : Option Limits :=
  (depth.natural? depthBound).map fun n => ⟨n⟩

/-- The limits that a document stores: an object has the depth as a field, beside
which other fields are ignored, an array as its one item.  A missing depth is the
default. -/
def ofJson? : Json → Option Limits
  | .object fields => ((fields.lookup "max_depth").map ofDepth?).getD (some {})
  | .array [] => some {}
  | .array [depth] => ofDepth? depth
  | _ => none

theorem ofJson?_toJson (l : Limits) (h : l.maxDepth < depthBound) :
    ofJson? l.toJson = some l := by
  simp [ofJson?, ofDepth?, toJson, Json.natural?, h]

theorem ofJson?_array (depth : Json) :
    ofJson? (.array [depth]) = ofJson? (.object [("max_depth", depth)]) := by
  simp [ofJson?]

end Limits

end Criteria
