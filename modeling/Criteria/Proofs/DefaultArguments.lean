import Criteria.Proofs.Calls
import Criteria.Proofs.WrittenNames

/-!
# Calls filled in from the defaults

A call gives the first arguments of a function; those that it leaves out are the last ones,
and their parameters have defaults.  A call with too few or too many arguments is refused,
with the bounds and the number found.  In any other the given arguments come first and
unchanged, and each later place holds the default of the parameter that stands in the same
place.  When the template has been accepted, no default can be of a wrong kind, so it depends
on the given arguments alone whether the call passes the check.

**Results.**
* `getElem?_declared`, `getElem?_filled`: the parameter in a place that a call leaves out, and
  what the filled in list holds there.
* `boundCall_of_arity`: which calls are refused.
* `boundCall_fills_defaults`: what a call is made of, and when it passes the check.
-/

namespace Criteria

open Outcome

namespace FunctionTemplate

section Places

variable (t : FunctionTemplate Expr)

/-- The parameters in the order of a call, each with its default if it has one. -/
def declared : List (Parameter × Option (Constant Expr)) :=
  t.required.map (fun p => (p, none)) ++ t.optional.map fun x => (x.1, some x.2)

theorem map_fst_declared : t.declared.map (·.1) = t.parameters := by
  simp [declared, parameters, Function.comp_def]

variable {t} {arguments : List Expr} {i : Nat}

/-- After the required parameters come the optional ones. -/
theorem getElem?_declared (h : t.least ≤ i) :
    t.declared[i]? = t.optional[i - t.least]?.map fun x => (x.1, some x.2) := by
  rw [declared, List.getElem?_append_right (by simpa [least] using h), List.length_map,
    List.getElem?_map, least]

/-- After the given arguments come the defaults, the first ones being left out for optional
parameters that an argument is given for. -/
theorem getElem?_filled (h : t.least ≤ arguments.length) (hi : arguments.length ≤ i) :
    (arguments ++ (t.defaults.drop (arguments.length - t.least)).map Expr.constant)[i]? =
      t.optional[i - t.least]?.map fun x => Expr.constant x.2 := by
  have hplace : arguments.length - t.least + (i - arguments.length) = i - t.least := by
    omega
  rw [List.getElem?_append_right hi, List.getElem?_map, List.getElem?_drop, hplace, defaults,
    List.getElem?_map, Option.map_map]
  rfl

/-- In a place that a call leaves out, the filled in list holds the default that is declared
for this place. -/
theorem exists_declared_filled (h : t.least ≤ arguments.length) (hi : arguments.length ≤ i)
    (hmost : i < t.most) :
    ∃ p c, t.declared[i]? = some (p, some c) ∧
      (arguments ++ (t.defaults.drop (arguments.length - t.least)).map Expr.constant)[i]? =
        some (.constant c) := by
  have hlt : i - t.least < t.optional.length := by
    rw [most] at hmost
    rw [least] at h ⊢
    omega
  refine ⟨t.optional[i - t.least].1, t.optional[i - t.least].2, ?_, ?_⟩
  · rw [getElem?_declared (Nat.le_trans h hi), List.getElem?_eq_getElem hlt]
    rfl
  · rw [getElem?_filled h hi, List.getElem?_eq_getElem hlt]
    rfl

end Places

end FunctionTemplate

namespace Expr

variable {path : Path} {t : FunctionTemplate Expr} {arguments : List Expr}

/-- A call is refused when its arguments are too few or too many, with both bounds and the
number found. -/
theorem boundCall_of_arity (h : arguments.length < t.least ∨ t.most < arguments.length) :
    boundCall path t arguments =
      .error (.arity t.qualifiedName.render t.least t.most arguments.length) := by
  rw [boundCall, FunctionTemplate.complete, FunctionTemplate.checkArity, if_pos h]
  rfl

theorem checkNode_filled_iff (hvalid : t.validate = .ok ())
    (h : t.least ≤ arguments.length) :
    (call path t (arguments ++
      (t.defaults.drop (arguments.length - t.least)).map constant)).checkNode = .ok () ↔
        ∀ x ∈ t.parameters.zip arguments, x.1.Takes x.2 :=
  FunctionTemplate.checkArguments_filled_iff
    ((FunctionTemplate.validate_eq_ok_iff t).mp hvalid) h path.render

/-- A function with `r` required and `o` optional parameters is called with `n` arguments.
Outside of the bounds the call is refused with them.  Within them the call has `r + o`
arguments: the `n` given ones, and in each later place the default of the parameter declared
for this place; and when the template has been accepted, the call passes the check exactly
when each given argument whose kind is known is of the kind that its parameter declares. -/
theorem boundCall_fills_defaults (path : Path) (t : FunctionTemplate Expr)
    (arguments : List Expr) :
    let n := arguments.length
    let r := t.required.length
    let o := t.optional.length
    (n < r ∨ r + o < n →
      boundCall path t arguments = .error (.arity t.qualifiedName.render r (r + o) n)) ∧
    (r ≤ n ∧ n ≤ r + o →
      ∃ filled, boundCall path t arguments = .ok (.call path t filled) ∧
        filled.length = r + o ∧ filled.take n = arguments ∧
        (∀ i, n ≤ i → i < r + o →
          ∃ p c, t.declared[i]? = some (p, some c) ∧ t.parameters[i]? = some p ∧
            filled[i]? = some (.constant c)) ∧
        (t.validate = .ok () →
          ((call path t filled).checkNode = .ok () ↔
            ∀ x ∈ t.parameters.zip arguments, x.1.Takes x.2))) := by
  intro n r o
  refine ⟨fun h => boundCall_of_arity h, ?_⟩
  intro harity
  have hcomplete := (FunctionTemplate.complete_eq_ok_iff t arguments _).mpr ⟨harity, rfl⟩
  have hlength := FunctionTemplate.length_complete hcomplete
  rw [FunctionTemplate.length_parameters] at hlength
  refine ⟨_, boundCall_eq_ok_iff.mpr ⟨_, hcomplete, rfl⟩, hlength,
    FunctionTemplate.take_complete hcomplete, ?_, ?_⟩
  · intro i hi hmost
    obtain ⟨p, c, hdeclared, hfilled⟩ :=
      FunctionTemplate.exists_declared_filled harity.1 hi hmost
    refine ⟨p, c, hdeclared, ?_, hfilled⟩
    rw [← t.map_fst_declared, List.getElem?_map, hdeclared]
    rfl
  · exact fun hvalid => checkNode_filled_iff hvalid harity.1

/-- Rounding takes a number and, if they are given, a number of digits and a mode.  A call
without the number is refused; one with two arguments gets the default of the third, and
passes the check when both are numbers, but not when the second is a text. -/
theorem boundCall_fills_defaults_round :
    let digits : Parameter × Constant Expr := (⟨"digits", some .number⟩, .number ⟨2, 0⟩)
    let mode : Parameter × Constant Expr := (⟨"mode", some .string⟩, .string "up")
    let t : FunctionTemplate Expr :=
      ⟨⟨["round"]⟩, [⟨"value", some .number⟩], [digits, mode], some .number⟩
    let path : Path := ⟨["math", "round"]⟩
    let seven : Expr := .number ⟨7, 0⟩
    let three : Expr := .number ⟨3, 0⟩
    t.validate = .ok () ∧ boundCall path t [] = .error (.arity "round" 1 3 0) ∧
      (∃ filled, boundCall path t [seven, three] = .ok (.call path t filled) ∧
        filled[2]? = some (.string "up") ∧ (call path t filled).checkNode = .ok ()) ∧
      ∃ filled, boundCall path t [seven, .string "a"] = .ok (.call path t filled) ∧
        (call path t filled).checkNode ≠ .ok () := by
  intro digits mode t path seven three
  have hvalid : t.validate = .ok () := by decide
  have hdeclared : t.declared[2]? = some (mode.1, some mode.2) := rfl
  refine ⟨hvalid, (boundCall_fills_defaults path t []).1 (by decide), ?_, ?_⟩
  · obtain ⟨filled, hcall, -, -, hplaces, hcheck⟩ :=
      (boundCall_fills_defaults path t [seven, three]).2 (by decide)
    refine ⟨filled, hcall, ?_, (hcheck hvalid).mpr ?_⟩
    · obtain ⟨p, c, hp, -, hc⟩ := hplaces 2 (by decide) (by decide)
      rw [hdeclared, Option.some.injEq, Prod.mk.injEq, Option.some.injEq] at hp
      rw [hc, ← hp.2]
    · simp only [t, FunctionTemplate.parameters, List.cons_append, List.nil_append,
        List.map_cons, List.zip_cons_cons, List.forall_mem_cons]
      refine ⟨?_, ?_, by simp⟩
      · rintro expected found ⟨⟩ ⟨⟩
        rfl
      · rintro expected found ⟨⟩ ⟨⟩
        rfl
  · obtain ⟨filled, hcall, -, -, -, hcheck⟩ :=
      (boundCall_fills_defaults path t [seven, .string "a"]).2 (by decide)
    refine ⟨filled, hcall, fun hok => ?_⟩
    have hsecond : (t.parameters.zip [seven, .string "a"])[1]? = some (digits.1, .string "a") :=
      rfl
    have htakes := (hcheck hvalid).mp hok _ (List.mem_of_getElem? hsecond)
    cases htakes .number .string rfl rfl

end Expr

end Criteria
