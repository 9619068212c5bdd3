/-!
# Binary64 values in exact arithmetic

A finite binary64 value is a whole number of powers of two, `m · 2^q`. This module takes a `Float`
apart into its sign and magnitude and puts one together again, so that whole parts, remainders
and decimal digits can be computed with natural numbers, without rounding.

## Main results

* `Magnitude.align_eq`: bringing a magnitude to a smaller unit keeps its value.
-/

namespace Formulary

namespace Number

/-- A **magnitude**: the number `m · 2^q`, with a mark for the values whose lower neighbour is
half as far away as the upper one. -/
structure Magnitude where
  m : Nat
  q : Int
  narrowBelow : Bool := false
  deriving DecidableEq, Repr

/-- The sign bit: set for negative values and for negative zero. -/
def isNegative (x : Float) : Bool :=
  x.toBits >>> 63 == 1

/-- The biased exponent field. -/
def exponentField (x : Float) : Nat :=
  ((x.toBits >>> 52) &&& 0x7FF).toNat

/-- The fraction field. -/
def fractionField (x : Float) : Nat :=
  (x.toBits &&& 0xFFFFFFFFFFFFF).toNat

/-- Whether the value is infinite or no number. -/
def isSpecial (x : Float) : Bool :=
  exponentField x == 0x7FF

/-- Whether the value is one of the two infinities. -/
def isInfinite (x : Float) : Bool :=
  isSpecial x && fractionField x == 0

/-- The **magnitude** of a finite value. -/
def magnitude (x : Float) : Magnitude :=
  let e := exponentField x
  let f := fractionField x
  if e = 0 then { m := f, q := -1074 }
  else { m := 0x10000000000000 + f, q := (e : Int) - 1075, narrowBelow := f == 0 && e > 1 }

/-- The count of a magnitude in units of `2^unit`, for a unit no larger than its own. -/
def Magnitude.align (a : Magnitude) (unit : Int) : Nat :=
  a.m * Nat.pow 2 (a.q - unit).toNat

/-- Aligned to a smaller unit, a magnitude keeps its value: counts times units agree. -/
theorem Magnitude.align_eq (a : Magnitude) {unit : Int} {k : Nat} (h : a.q = unit + k) :
    a.align unit = a.m * Nat.pow 2 k := by
  simp only [Magnitude.align, h]
  congr 2
  omega

/-- The whole part of a finite value's magnitude. -/
def wholePart (x : Float) : Nat :=
  let a := magnitude x
  if 0 ≤ a.q then a.m * Nat.pow 2 a.q.toNat else a.m / Nat.pow 2 (-a.q).toNat

/-- Whether a finite value is a whole number. -/
def isWhole (x : Float) : Bool :=
  let a := magnitude x
  0 ≤ a.q || a.m % Nat.pow 2 (-a.q).toNat == 0

/-- A finite value without its fraction. -/
def truncate (x : Float) : Int :=
  if isNegative x then -(wholePart x : Int) else wholePart x

/-- The greatest whole number that is not above a finite value. -/
def floorInt (x : Float) : Int :=
  if isNegative x && !isWhole x then truncate x - 1 else truncate x

/-- The value with the given sign and magnitude `m · 2^q`. The result is exact for
`m < 2^53` and `q ≥ -1074` unless it exceeds the range. -/
def ofMagnitude (negative : Bool) (m : Nat) (q : Int) : Float :=
  let sign : Nat := if negative then 0x8000000000000000 else 0
  if m = 0 then Float.ofBits (UInt64.ofNat sign)
  else
    let e := q + m.log2
    if e < -1022 then Float.ofBits (UInt64.ofNat (sign + m * Nat.pow 2 (q + 1074).toNat))
    else if 1023 < e then Float.ofBits (UInt64.ofNat (sign + 0x7FF0000000000000))
    else
      let fraction := m * Nat.pow 2 (52 - m.log2) - 0x10000000000000
      Float.ofBits (UInt64.ofNat (sign + (e + 1023).toNat * 0x10000000000000 + fraction))

/-- The **truncated remainder** `a - n · b`, where `n` is the quotient `a / b` without its
fraction. It is exact and has the sign of `a`. A remainder of an infinity or by zero is no number,
and a remainder by an infinity is the value itself. -/
def remainder (a b : Float) : Float :=
  if a.isNaN || b.isNaN || isInfinite a || b == 0 then Float.ofBits 0x7FF8000000000000
  else if isInfinite b then a
  else
    let x := magnitude a
    let y := magnitude b
    let unit := min x.q y.q
    ofMagnitude (isNegative a) (x.align unit % y.align unit) unit

end Number

end Formulary
