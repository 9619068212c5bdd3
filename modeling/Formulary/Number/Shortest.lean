import Formulary.Number.Binary64

/-!
# Shortest decimals

The decimal that is written for a binary64 value is the one with the fewest digits among those
that read back as the value, and of these the nearest. The real numbers that read back form an
interval around the value; its ends belong to it when `m` is even. A decimal grid meets the
interval only if one of the value's two neighbours on that grid lies in it, so it is enough to
test those, from one digit up to seventeen.

## Main results

* `Magnitude.shortest?_readsBack`: a decimal that the search returns reads back.
-/

namespace Formulary.Number

/-- A **decimal** `digits · 10^exponent`. -/
structure Decimal where
  digits : Nat
  exponent : Int
  deriving DecidableEq, Repr

/-- Compares `a · 10^i` with `n · 2^j` exactly. -/
def compareScaled (a : Nat) (i : Int) (n : Nat) (j : Int) : Ordering :=
  compare (a * Nat.pow 10 i.toNat * Nat.pow 2 (-j).toNat)
    (n * Nat.pow 2 j.toNat * Nat.pow 10 (-i).toNat)

namespace Magnitude

/-- Whether the decimal **reads back** as the value: it lies between the halfway points to the
two neighbours, which belong to the interval when `m` is even. -/
def readsBack (x : Magnitude) (d : Decimal) : Bool :=
  let low := if x.narrowBelow then 4 * x.m - 1 else 4 * x.m - 2
  let high := 4 * x.m + 2
  let closed := x.m % 2 == 0
  let fromBelow := compareScaled d.digits d.exponent low (x.q - 2)
  let fromAbove := compareScaled d.digits d.exponent high (x.q - 2)
  (fromBelow == .gt || (closed && fromBelow == .eq)) &&
    (fromAbove == .lt || (closed && fromAbove == .eq))

/-- The **scale** of a nonzero value: the least `k` with the value below `10^k`. The estimate
from the binary logarithm is at most one too small. -/
def scale (x : Magnitude) : Int :=
  let estimate := ((x.m.log2 + x.q) * 30103).fdiv 100000
  let below (k : Int) : Bool := compareScaled 1 k x.m x.q == .gt
  if below estimate then estimate
  else if below (estimate + 1) then estimate + 1
  else estimate + 2

/-- The value rounded down on the grid `10^exponent`. -/
def floorOn (x : Magnitude) (exponent : Int) : Nat :=
  (x.m * Nat.pow 2 x.q.toNat * Nat.pow 10 (-exponent).toNat) /
    (Nat.pow 2 (-x.q).toNat * Nat.pow 10 exponent.toNat)

/-- Of the grid point at or below the value and the next one, the nearer; on a tie the even. -/
def nearerOn (x : Magnitude) (exponent : Int) : Nat :=
  let d := x.floorOn exponent
  match compareScaled (2 * d + 1) exponent (2 * x.m) x.q with
  | .gt => d
  | .lt => d + 1
  | .eq => if d % 2 = 0 then d else d + 1

/-- The decimal that reads back on the grid `10^exponent`, if there is one. -/
def onGrid? (x : Magnitude) (exponent : Int) : Option Decimal :=
  let nearer := x.nearerOn exponent
  let lower := x.floorOn exponent
  ([nearer, lower, lower + 1].map fun d => ({ digits := d, exponent } : Decimal)).find?
    x.readsBack

/-- The decimal with the fewest digits that reads back, for a nonzero value. -/
def shortest? (x : Magnitude) : Option Decimal :=
  (List.range 17).findSome? fun (n : Nat) => x.onGrid? (x.scale - 1 - n)

/-- The value itself as a decimal. -/
def exact (x : Magnitude) : Decimal :=
  if 0 ≤ x.q then { digits := x.m * Nat.pow 2 x.q.toNat, exponent := 0 }
  else { digits := x.m * Nat.pow 5 (-x.q).toNat, exponent := x.q }

/-- What the search returns reads back. -/
theorem shortest?_readsBack {x : Magnitude} {d : Decimal} (h : x.shortest? = some d) :
    x.readsBack d = true := by
  obtain ⟨n, _, hn⟩ := List.exists_of_findSome?_eq_some h
  exact List.find?_some hn

end Magnitude

/-- Drops zeros at the end of a decimal's digits, at most `fuel` of them. -/
def Decimal.strip : (fuel : Nat) → Decimal → Decimal
  | 0, d => d
  | fuel + 1, d =>
    if d.digits % 10 = 0 then
      Decimal.strip fuel { digits := d.digits / 10, exponent := d.exponent + 1 }
    else d

/-- The **shortest decimal** of a finite value, without zeros at its end. Zero is `0 · 10^0`. -/
def shortest (x : Float) : Decimal :=
  let a := magnitude x
  if a.m = 0 then { digits := 0, exponent := 0 }
  else
    let d := a.shortest?.getD a.exact
    d.strip (d.digits.log2 + 1)

end Formulary.Number
