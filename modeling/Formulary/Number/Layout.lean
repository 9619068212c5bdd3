import Formulary.Number.Shortest

/-!
# How numbers are written

A number is written either positionally or with an exponent, depending on the place of its leading
digit. Three forms are in use: the *standard* one of results and messages, the *compact* one of
tables and tree documents, and the *positional* one of formula text, which has no exponent at all.
A fourth form, with six significant digits, names a number that stands where a name belongs.
-/

namespace Formulary.Number

/-- A **layout**: which exponents of the leading digit are written positionally, and how wide the
exponent of the others is. An exponent always has a sign. -/
structure Layout where
  /-- The least exponent of the leading digit that is written positionally. -/
  positionalFrom : Int
  /-- The first exponent of the leading digit that is no longer written positionally. -/
  positionalBelow : Int
  /-- The least number of digits of an exponent. -/
  exponentWidth : Nat
  /-- The text of a value that is no number. -/
  notANumber : String

/-- Results and messages: positional from `0.0001` to below `10^16`, then `1e+16` and `1e-05`. -/
def Layout.standard : Layout where
  positionalFrom := -4
  positionalBelow := 16
  exponentWidth := 2
  notANumber := "nan"

/-- Tables and documents: positional from `0.00001` to below `10^16`, then `1e+16` and `1e-6`. -/
def Layout.compact : Layout where
  positionalFrom := -5
  positionalBelow := 16
  exponentWidth := 1
  notANumber := "NaN"

/-! ### Digits -/

/-- The decimal digits of a natural number. -/
def digitsOf (n : Nat) : List Char :=
  Nat.toDigits 10 n

/-- The digits of a number, with zeros in front up to a width. -/
def padded (width n : Nat) : List Char :=
  let ds := digitsOf n
  List.replicate (width - ds.length) '0' ++ ds

/-- `count` zeros. -/
def zeros (count : Nat) : List Char :=
  List.replicate count '0'

/-- A decimal in positional notation; `point` adds `.0` to a whole number. -/
def Decimal.positional (d : Decimal) (point : Bool) : List Char :=
  let ds := digitsOf d.digits
  let places := (ds.length : Int) + d.exponent
  if 0 ≤ d.exponent then
    ds ++ zeros d.exponent.toNat ++ (if point then ['.', '0'] else [])
  else if 0 < places then ds.take places.toNat ++ '.' :: ds.drop places.toNat
  else '0' :: '.' :: zeros (-places).toNat ++ ds

/-- A decimal with one digit before the point, the others after it, and an exponent. -/
def Decimal.scientific (d : Decimal) (layout : Layout) : List Char :=
  let ds := digitsOf d.digits
  let e := d.exponent + (ds.length : Int) - 1
  let fraction := if ds.length ≤ 1 then [] else '.' :: ds.drop 1
  let sign := if e < 0 then '-' else '+'
  ds.take 1 ++ fraction ++ 'e' :: sign :: padded layout.exponentWidth e.natAbs

/-- The exponent of a decimal's leading digit. -/
def Decimal.leading (d : Decimal) : Int :=
  d.exponent + ((digitsOf d.digits).length : Int) - 1

/-! ### Whole numbers and values -/

/-- The text of a value in a layout. -/
def Layout.write (layout : Layout) (x : Float) : String :=
  if x.isNaN then layout.notANumber
  else
    let sign := if isNegative x then ['-'] else []
    if isInfinite x then String.ofList (sign ++ ['i', 'n', 'f'])
    else
      let d := shortest x
      let body :=
        if layout.positionalFrom ≤ d.leading ∧ d.leading < layout.positionalBelow then
          d.positional true
        else d.scientific layout
      String.ofList (sign ++ body)

/-- The text of a value in results and messages. -/
def standard (x : Float) : String :=
  Layout.standard.write x

/-- The text of a value in tables and documents. -/
def compact (x : Float) : String :=
  Layout.compact.write x

/-- Whether the standard layout writes a finite value with an exponent. -/
def needsExponent (x : Float) : Bool :=
  let e := (shortest x).leading
  e < Layout.standard.positionalFrom || Layout.standard.positionalBelow ≤ e

/-- The text of a finite value in formulas: the standard text where that is positional, and else
the same digits with as many zeros as it takes, without a point after a whole number. -/
def positional (x : Float) : String :=
  if needsExponent x then
    String.ofList ((if isNegative x then ['-'] else []) ++ (shortest x).positional false)
  else standard x

/-- The quotient of two natural numbers, rounded to the nearest, a half to the even one. -/
def roundedQuotient (a b : Nat) : Nat :=
  let q := a / b
  match compare (2 * (a % b)) b with
  | .lt => q
  | .gt => q + 1
  | .eq => if q % 2 = 0 then q else q + 1

/-- The decimal with at most six significant digits that is nearest to a nonzero value. -/
def sixDigits (x : Magnitude) : Decimal :=
  let e := x.scale - 6
  let a := x.m * Nat.pow 2 x.q.toNat * Nat.pow 10 (-e).toNat
  let b := Nat.pow 2 (-x.q).toNat * Nat.pow 10 e.toNat
  Decimal.strip 7 { digits := roundedQuotient a b, exponent := e }

/-- The text of a value with at most six significant digits: positional from `0.0001` to below
`10^6`, without a point after a whole number. -/
def brief (x : Float) : String :=
  if isSpecial x then standard x
  else
    let sign := if isNegative x then ['-'] else []
    let a := magnitude x
    if a.m = 0 then String.ofList (sign ++ ['0'])
    else
      let d := sixDigits a
      let body :=
        if -4 ≤ d.leading ∧ d.leading < 6 then d.positional false
        else d.scientific Layout.standard
      String.ofList (sign ++ body)

/-- The text of a whole number. -/
def whole (n : Int) : String :=
  match n with
  | .ofNat k => String.ofList (digitsOf k)
  | .negSucc k => String.ofList ('-' :: digitsOf (k + 1))

end Formulary.Number
