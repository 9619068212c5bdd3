import Formulary.Formula.Basic
import Formulary.Number.Binary64

/-!
# Arithmetic

Values are binary64 numbers. In strict mode a fault of arithmetic shows as an infinity or as no
number; in safe mode an operation outside its domain gives zero, and so does every operation
whose result is no number. Comparisons give one or zero and take values closer than a tolerance
as equal.

## Main results

* `settle_safe_isNaN`: in safe mode a settled value is a number.
-/

namespace Formulary

/-- The **mode** of arithmetic. -/
inductive Mode where
  /-- Faults give zero. -/
  | safe
  /-- Faults give infinities or no number. -/
  | strict
  deriving DecidableEq, Repr

/-- The mode for a flag. -/
def Mode.ofBool (strict : Bool) : Mode :=
  if strict then .strict else .safe

/-- Whether the mode is strict. -/
def Mode.isStrict (mode : Mode) : Bool :=
  mode == .strict

/-- Replaces a result that is no number by zero in safe mode. -/
def settle (mode : Mode) (x : Float) : Float :=
  match mode with
  | .safe => if x.isNaN then 0.0 else x
  | .strict => x

/-! ### Unary operations -/

/-- The largest argument of a factorial in safe mode. -/
def largestFactorial : Float := 12.0

/-- Multiplies a result by `k`, `k - 1`, … down to two, or until it is infinite. -/
def productDown (result : Float) : Nat → Float
  | 0 => result
  | k + 1 =>
    if k = 0 || Number.isInfinite result then result
    else productDown (result * Float.ofNat (k + 1)) k

/-- The **factorial** of the whole part of a value; one for everything below two. -/
def factorial (x : Float) : Float :=
  if x.isNaN then x
  else if Number.isInfinite x then if x > 0.0 then x else 1.0
  else productDown 1.0 (Number.floorInt x).toNat

/-- The result of a unary operation without regard to faults. -/
def UnaryOp.apply (op : UnaryOp) (x : Float) : Float :=
  match op with
  | negate => -x
  | sqrt => x.sqrt
  | log10 => x.log10
  | ln => x.log
  | sin => x.sin
  | cos => x.cos
  | tan => x.tan
  | sinh => x.sinh
  | cosh => x.cosh
  | tanh => x.tanh
  | asin => x.asin
  | acos => x.acos
  | atan => x.atan
  | abs => x.abs
  | ceil => x.ceil
  | floor => x.floor
  | factorial => Formulary.factorial x

/-- Whether a value lies outside the domain that an operation has in safe mode. -/
def UnaryOp.guards (op : UnaryOp) (x : Float) : Bool :=
  match op with
  | sqrt => x < 0.0
  | log10 | ln => x ≤ 0.0
  | tan => x.cos == 0.0
  | asin | acos => x > 1.0 || x < -1.0
  | factorial => x < 0.0 || x > largestFactorial
  | _ => false

/-- The value of a unary operation. The minus never fails and is never settled. -/
def UnaryOp.value (op : UnaryOp) (mode : Mode) (x : Float) : Float :=
  if op = negate then -x
  else if mode = .safe && op.guards x then 0.0
  else settle mode (op.apply x)

/-! ### Binary operations -/

/-- The distance below which two values are equal. -/
def tolerance : Float := 1e-5

/-- Whether two values are **equal** up to the tolerance. -/
def near (a b : Float) : Bool :=
  (a - b).abs < tolerance

/-- The number for a truth value. -/
def truth (b : Bool) : Float :=
  if b then 1.0 else 0.0

/-- The **modulo** of two values: the remainder moved into the range of the divisor. -/
def modulo (a b : Float) : Float :=
  Number.remainder (Number.remainder a b + b) b

/-- The result of an operation of arithmetic without regard to faults. -/
def BinaryOp.apply (op : BinaryOp) (a b : Float) : Float :=
  match op with
  | add => a + b
  | sub => a - b
  | mul => a * b
  | div => a / b
  | mod => modulo a b
  | pow => a.pow b
  | eq => truth (near a b)
  | ne => truth (!near a b)
  | gt => truth (!near a b && a > b)
  | lt => truth (!near a b && a < b)

/-- Whether an operation is a comparison. -/
def BinaryOp.isComparison : BinaryOp → Bool
  | eq | ne | gt | lt => true
  | _ => false

/-- Whether safe mode gives zero for an operation without computing it: a division by zero. -/
def BinaryOp.guards (op : BinaryOp) (b : Float) : Bool :=
  match op with
  | div | mod => b == 0.0
  | _ => false

/-- The value of a binary operation. -/
def BinaryOp.value (op : BinaryOp) (mode : Mode) (a b : Float) : Float :=
  if op.isComparison then op.apply a b
  else if mode = .safe && op.guards b then 0.0
  else settle mode (op.apply a b)

/-! ### Aggregates -/

/-- The total of an aggregate without terms. -/
def AggregateOp.unit : AggregateOp → Float
  | sum => 0.0
  | mult => 1.0

/-- Adds a term to the total of an aggregate. -/
def AggregateOp.combine (op : AggregateOp) (total term : Float) : Float :=
  match op with
  | sum => total + term
  | mult => total * term

/-! ### Settled values -/

/-- In safe mode a settled value is a number. -/
theorem settle_safe_isNaN (x : Float) : (settle .safe x).isNaN = false := by
  cases h : x.isNaN with
  | true =>
    rw [settle, if_pos h]
    decide
  | false =>
    rw [settle, if_neg (Bool.eq_false_iff.1 h)]
    exact h

end Formulary
