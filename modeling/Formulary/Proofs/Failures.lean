import Formulary.Number.Conversion
import Formulary.Proofs.Dependence
import Formulary.Proofs.Overflow
import Formulary.Proofs.Scoping

/-!
# Why an Evaluation Fails

Arithmetic never fails: in strict mode a fault shows as an infinity or as no number, in safe mode as
zero. This module proves that an evaluation has a single way to fail, which is a name that the
caller has not set although the formula refers to it, and that the one other way to give no value
is to run forever.

The factorial is the only operation that leaves the arithmetic of binary64. It takes the whole part
of a value and multiplies by whole numbers, and both conversions could be refused: there is no whole
part of an infinity, and no value for a whole number beyond the range. They are refused nowhere
where the factorial converts.

## Conventions

An endless aggregate is no failure. It has a limit that its counter never passes.

`checkedFactorial` is the factorial with conversions that may be refused. It is not used to
evaluate formulas, since it is the factorial (`checkedFactorial_eq`).

## Main results

* `Number.isSpecial_ofNat`: a whole number in the range is rounded to a finite value.
* `checkedFactorial_eq`: the conversions of a factorial are not refused.
* `Formula.evaluate_stops`: an evaluation fails for a missing reference alone.
-/

namespace Formulary.Number

open Float.Model (Format UnpackedFloat)
open Float.Model.UnpackedFloat

/-! ### Whole numbers in the range -/

/-- The greatest whole number that is a value. -/
def largestWhole : ℕ := (2 ^ 53 - 1) * 2 ^ 971

/-- The greatest whole number as a mantissa and a power of two. -/
theorem cast_largestWhole : (largestWhole : ℚ) = (2 ^ 53 - 1) * 2 ^ (971 : ℤ) := by
  have hmantissa : ((2 ^ 53 - 1 : ℕ) : ℚ) = 2 ^ 53 - 1 := by norm_num
  rw [largestWhole, Nat.cast_mul, hmantissa, Nat.cast_pow, ← zpow_natCast]
  rfl

/-- **A whole number in the range is rounded to a finite value**, since it lies below the number
that overflows. -/
theorem isSpecial_ofNat {k : ℕ} (h : k ≤ largestWhole) : isSpecial (Float.ofNat k) = false := by
  rcases Nat.eq_zero_or_pos k with rfl | hpos
  · decide +kernel
  obtain ⟨u, ⟨m, e, a, hmeasures, hlong, rfl⟩, hvalue⟩ :=
    exists_ofScientific_eq (d := k) (e := 0) hpos (by omega) (by omega)
  rw [zpow_zero, mul_one] at hmeasures
  have hleast : (2 : ℚ) ^ (-1074 : ℤ) ≤ k :=
    (zpow_le_one_of_nonpos₀ one_le_two (by norm_num)).trans (by exact_mod_cast hpos)
  have hbelow : (k : ℚ) < overflowBound := by
    refine ((Nat.cast_le.2 h).trans_eq cast_largestWhole).trans_lt ?_
    exact mul_lt_mul_of_pos_right (by norm_num) (two_zpow_pos _)
  obtain ⟨-, ⟨-, hfinite⟩ | ⟨hover, -⟩⟩ := rounded_cases hmeasures hlong hleast hvalue
  · exact hfinite
  · exact absurd hbelow (not_lt.2 hover)

/-- The whole part of a finite value is in the range. -/
theorem wholePart_le {x : Float} (hx : isSpecial x = false) : wholePart x ≤ largestWhole := by
  obtain ⟨hm, -, hq, -⟩ := magnitude_bounds hx
  have hm' : (magnitude x).m ≤ 2 ^ 53 - 1 := by omega
  have hscaled {n : ℕ} (hn : n ≤ 971) : (magnitude x).m * 2 ^ n ≤ largestWhole := by
    rw [largestWhole]
    gcongr
    exact one_le_two
  rw [wholePart]
  split
  · exact hscaled (by omega)
  · exact (Nat.div_le_self ..).trans (by simpa using hscaled (Nat.zero_le _))

/-- So is the greatest whole number that is not above it. -/
theorem toNat_floorInt_le {x : Float} (hx : isSpecial x = false) :
    (floorInt x).toNat ≤ largestWhole := by
  have hwhole := wholePart_le hx
  rw [floorInt, truncate]
  split <;> split <;> omega

end Formulary.Number

namespace Formulary

open Number (Passable isInfinite isSpecial largestWhole)

/-! ### The conversions of a factorial -/

/-- The greatest whole number that is not above a value; refused where there is none. -/
def checkedFloor (x : Float) : Except ConversionFault Int :=
  if x.isNaN then .error .wholeOfNaN
  else if isInfinite x then .error .wholeOfInfinity
  else .ok (Number.floorInt x)

/-- The product of a result with `k`, `k - 1`, … as in `productDown`; refused when a factor has no
value. -/
def checkedProduct (result : Float) : ℕ → Except ConversionFault Float
  | 0 => .ok result
  | k + 1 =>
    if k = 0 || isInfinite result then .ok result
    else
      match Number.ofWhole? (k + 1 : ℕ) with
      | some factor => checkedProduct (result * factor) k
      | none => .error .outOfRange

/-- The **factorial with checked conversions**. -/
def checkedFactorial (x : Float) : Except ConversionFault Float := do
  if x.isNaN then return x
  if isInfinite x then return (if x > 0.0 then x else 1.0)
  checkedProduct 1.0 (← checkedFloor x).toNat

/-- A whole number in the range has a value. -/
theorem ofWhole?_eq {k : ℕ} (h : k ≤ largestWhole) :
    Number.ofWhole? k = some (Float.ofNat k) := by
  have hfinite : isInfinite (Float.ofNat k) = false := by
    rw [isInfinite, Number.isSpecial_ofNat h, Bool.false_and]
  rw [Number.ofWhole?]
  exact if_neg (Bool.eq_false_iff.1 hfinite)

/-- A product of factors in the range is not refused. -/
theorem checkedProduct_eq {k : ℕ} (h : k ≤ largestWhole) (result : Float) :
    checkedProduct result k = .ok (productDown result k) := by
  induction k generalizing result with
  | zero => rfl
  | succ k ih =>
      rw [checkedProduct, productDown, ofWhole?_eq h]
      split
      · rfl
      · exact ih (by omega) _

/-- **The conversions of a factorial are not refused.** -/
theorem checkedFactorial_eq (x : Float) : checkedFactorial x = .ok (factorial x) := by
  rw [checkedFactorial, factorial]
  by_cases hnan : x.isNaN = true
  · rw [if_pos hnan, if_pos hnan]
    rfl
  rw [if_neg hnan, if_neg hnan]
  by_cases hinfinite : isInfinite x = true
  · rw [if_pos hinfinite, if_pos hinfinite]
    rfl
  rw [if_neg hinfinite, if_neg hinfinite, checkedFloor, if_neg hnan, if_neg hinfinite]
  have hfinite : isSpecial x = false := by
    rw [Number.isInfinite_eq_isSpecial (by simpa using hnan)] at hinfinite
    simpa using hinfinite
  exact checkedProduct_eq (Number.toNat_floorInt_le hfinite) 1.0

/-! ### Evaluations that stop -/

/-- An evaluation that is endless has reached a limit that cannot be passed. -/
theorem Formula.exists_not_passable_of_endless {mode : Mode} {samples : Samples} {f : Formula}
    {w : Workspace} (h : (f.run mode samples w).1 = .error .endless) :
    ∃ op counter limit body v bound v',
      Visits mode samples f w (.aggregate op counter limit body) v ∧
        limit.run mode samples v = (.ok bound, v') ∧ ¬ Passable bound := by
  by_contra hnone
  have hagrees : Agrees w.store ((f.meaning mode samples w.store.get?).runFrom w.drawn)
      (f.run mode samples w) := by
    refine run_agrees fun op counter limit body v bound v' hvisits hlimit => ?_
    by_contra hbound
    exact hnone ⟨op, counter, limit, body, v, bound, v', hvisits, hlimit, hbound⟩
  obtain ⟨x, drawn, -, hrun⟩ | ⟨name, available, drawn, -, hrun⟩ := agrees_cases hagrees <;>
    rw [hrun] at h <;> cases h

/-- **An evaluation fails for a missing reference alone.** If it stops, then a name is unbound that
the formula refers to and the store does not have, or a limit was reached that cannot be passed. So
it does not fail on a store with all references, and neither does a factorial that it takes, whose
conversions are not refused. -/
theorem Formula.evaluate_stops (f : Formula) (store : Store) (mode : Mode) (samples : Samples) :
    (∀ stop, (f.evaluate store mode samples).1 = .error stop →
      (∃ name available, stop = .unbound name available ∧ name ∈ f.references ∧
        store.has name = false) ∨
      (stop = .endless ∧ ∃ op counter limit body v bound v',
        Visits mode samples f { store := store } (.aggregate op counter limit body) v ∧
          limit.run mode samples v = (.ok bound, v') ∧ ¬ Passable bound)) ∧
    ((∀ name ∈ f.references, store.has name = true) →
      (∃ x, (f.evaluate store mode samples).1 = .ok x) ∨
        (f.evaluate store mode samples).1 = .error .endless) ∧
    ∀ x, checkedFactorial x = .ok (factorial x) := by
  refine ⟨fun stop h => ?_, fun h => ?_, checkedFactorial_eq⟩
  · cases stop with
    | unbound name available =>
        obtain ⟨hname, hget⟩ := unbound_of_run h
        refine .inl ⟨name, available, rfl, hname, ?_⟩
        have hmissing : store.get? name = none := hget
        rw [Store.has, hmissing]
        rfl
    | endless => exact .inr ⟨rfl, exists_not_passable_of_endless h⟩
  · cases hresult : (f.evaluate store mode samples).1 with
    | ok x => exact .inl ⟨x, rfl⟩
    | error stop =>
        cases stop with
        | unbound name available =>
            exact absurd hresult (run_ne_unbound h mode samples name available)
        | endless => exact .inr rfl

/-- A variable that is missing in the body of the inner one of two aggregates, and not missing once
it is set. -/
theorem Formula.evaluate_stops_nested :
    let f : Formula := .aggregate .sum "i" (.literal 2.0) (.aggregate .mult "j" (.var "i")
      (.binary .mul (.var "j") (.var "y")))
    (∃ name available,
      (f.evaluate (.ofList [("i", 5.0)]) .strict fun _ => 0.5).1 =
          .error (.unbound name available) ∧
        name ∈ f.references ∧ (Store.ofList [("i", 5.0)]).has name = false) ∧
      ((∃ x, (f.evaluate (.ofList [("y", 3.0)]) .strict fun _ => 0.5).1 = .ok x) ∨
        (f.evaluate (.ofList [("y", 3.0)]) .strict fun _ => 0.5).1 = .error .endless) := by
  intro f
  have hrun : (f.evaluate (.ofList [("i", 5.0)]) .strict fun _ => 0.5).1 =
      .error (.unbound "y" ["i", "j"]) := by
    rfl
  have hset : ∀ name ∈ f.references, (Store.ofList [("y", 3.0)]).has name = true := by
    decide
  refine ⟨?_, (evaluate_stops f _ .strict _).2.1 hset⟩
  obtain ⟨name, available, hstop, hname, hmissing⟩ | ⟨hstop, -⟩ :=
    (evaluate_stops f _ .strict _).1 _ hrun
  · exact ⟨name, available, hstop ▸ hrun, hname, hmissing⟩
  · cases hstop

end Formulary
