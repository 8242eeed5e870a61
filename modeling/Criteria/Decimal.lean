/-!
# Decimal numbers

A decimal is an integer and the number of its digits that stand after the point.
Two decimals with different scales may be the same number: `29.5` and `29.50`
compare equal and are written differently.  Zero has no sign.

**Results.**
* `beq_refl`, `beq_comm`: the comparison by value is reflexive and symmetric.
* `beq_iff`: two decimals are the same number exactly when they agree after
  both are brought to one scale.
-/

namespace Criteria

/-- The number `mantissa / 10 ^ scale`, remembering its scale. -/
structure Decimal where
  mantissa : Int
  scale : Nat

namespace Decimal

/-- A whole number. -/
def ofInt (n : Int) : Decimal :=
  ⟨n, 0⟩

instance : Inhabited Decimal := ⟨ofInt 0⟩

/-- The mantissa that `a` has when it shares a scale with `b`. -/
def scaled (a b : Decimal) : Int :=
  a.mantissa * Int.pow 10 b.scale

/-- Two decimals are equal when they are the same number. -/
instance : BEq Decimal where
  beq a b := scaled a b == scaled b a

/-- Whether `a` is a smaller number than `b`. -/
def below (a b : Decimal) : Bool :=
  scaled a b < scaled b a

/-- Whether `a` is no greater a number than `b`. -/
def atMost (a b : Decimal) : Bool :=
  scaled a b ≤ scaled b a

section Text

/-- The digits of the mantissa, with enough leading zeros for one digit to stand
before the point. -/
def digits (d : Decimal) : List Char :=
  let ds := Nat.toDigits 10 d.mantissa.natAbs
  List.replicate (d.scale + 1 - ds.length) '0' ++ ds

/-- The digits before the point. -/
def wholeDigits (d : Decimal) : List Char :=
  d.digits.take (d.digits.length - d.scale)

/-- The digits after the point. -/
def fractionDigits (d : Decimal) : List Char :=
  d.digits.drop (d.digits.length - d.scale)

/-- The written form: all digits of the scale are kept, and the point stands only
before a digit. -/
def render (d : Decimal) : String :=
  String.ofList
    ((if d.mantissa < 0 then ['-'] else []) ++ d.wholeDigits ++
      (if d.scale = 0 then [] else '.' :: d.fractionDigits))

/-- The number that a non-empty run of digits writes. -/
def readDigits? (ds : List Char) : Option Nat :=
  if ds.isEmpty || !ds.all Char.isDigit then none
  else some (ds.foldl (fun n c => 10 * n + (c.toNat - 48)) 0)

/-- The decimal that digits with at most one point among them write. -/
def readUnsigned? (cs : List Char) : Option (Nat × Nat) :=
  let whole := cs.takeWhile (· ≠ '.')
  match cs.dropWhile (· ≠ '.') with
  | [] => (readDigits? whole).map (·, 0)
  | _ :: fraction => do
      let _ ← readDigits? whole
      let _ ← readDigits? fraction
      let n ← readDigits? (whole ++ fraction)
      pure (n, fraction.length)

/-- Reads an optional sign, digits, and optionally a point and more digits. -/
def read? (s : String) : Option Decimal :=
  match s.toList with
  | '-' :: cs => (readUnsigned? cs).map fun p => ⟨-(p.1 : Int), p.2⟩
  | cs => (readUnsigned? cs).map fun p => ⟨p.1, p.2⟩

end Text

theorem beq_iff (a b : Decimal) :
    (a == b) = true ↔ scaled a b = scaled b a := by
  show (scaled a b == scaled b a) = true ↔ _
  simp

theorem beq_refl (a : Decimal) : (a == a) = true := by
  simp [beq_iff]

theorem beq_comm (a b : Decimal) : (a == b) = (b == a) := by
  rw [Bool.eq_iff_iff, beq_iff, beq_iff]
  exact eq_comm

end Decimal

end Criteria
