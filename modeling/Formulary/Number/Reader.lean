import Formulary.Text.Blank
import Formulary.Text.DecimalDigit
import Formulary.Number.Binary64

/-!
# Reading numbers

A number typed by a user may have blanks around it, a sign, digits of any script, single
underscores between digits, a fraction and an exponent, or be one of the words `inf`, `infinity`
and `nan` in any case. The decimal is rounded once, to the nearest binary64 value.
-/

namespace Formulary.Number

open Formulary.Text

/-! ### Plain characters -/

/-- Whether a blank may stand around a number: the information separators may not. -/
def isNumberBlank (c : Char) : Bool :=
  isBlank c && !(decide (0x1C ≤ c.toNat) && decide (c.toNat ≤ 0x1F))

/-- The digit of any script as the digit of the same value between `'0'` and `'9'`. -/
def plainDigit (c : Char) : Char :=
  match digitValue? c with
  | some d => Char.ofNat (0x30 + d)
  | none => c

/-- The text of a number without blanks at its ends and with plain digits. -/
def plainNumber (s : String) : List Char :=
  (trimBy isNumberBlank s.toList).map plainDigit

/-- Removes underscores; there is no result if one stands without a digit on both sides. -/
def dropUnderscores : (previous : Char) → List Char → Option (List Char)
  | previous, [] => if previous = '_' then none else some []
  | previous, c :: rest =>
    if c = '_' then
      if previous.isDigit then dropUnderscores c rest else none
    else if previous = '_' ∧ !c.isDigit then none
    else (dropUnderscores c rest).map (c :: ·)

/-! ### Numerals -/

/-- The value of a digit sequence, continuing from `n`. -/
def digitsValue (n : Nat) (ds : List Char) : Nat :=
  ds.foldl (fun n c => n * 10 + (c.toNat - 0x30)) n

/-- Takes an optional sign; the flag tells whether it is a minus. -/
def takeSign : List Char → Bool × List Char
  | '-' :: rest => (true, rest)
  | '+' :: rest => (false, rest)
  | cs => (false, cs)

/-- The value nearest to `digits · 10^exponent`. Exponents beyond the range of binary64 are
answered without computing the power. -/
def nearest (digits : Nat) (exponent : Int) : Float :=
  if digits = 0 then Float.ofBits 0
  else
    let size := (digits.log2 : Int) + 1
    if 400 < exponent then Float.ofBits 0x7FF0000000000000
    else if exponent + size < -400 then Float.ofBits 0
    else Float.ofScientific digits (exponent < 0) exponent.natAbs

/-- The exponent part of a numeral: absent, or the letter, a sign and digits. -/
def readExponent : List Char → Option Int
  | [] => some 0
  | c :: rest =>
    if c = 'e' ∨ c = 'E' then
      let (negative, ds) := takeSign rest
      if ds.isEmpty || !ds.all Char.isDigit then none
      else
        let n : Int := digitsValue 0 ds
        some (if negative then -n else n)
    else none

/-- An unsigned numeral: digits with at most one point, at least one digit, then an exponent. -/
def readNumeral (cs : List Char) : Option Float :=
  let (digits, afterDigits) := cs.span Char.isDigit
  let (fraction, afterFraction) :=
    match afterDigits with
    | '.' :: rest => rest.span Char.isDigit
    | rest => ([], rest)
  if digits.isEmpty && fraction.isEmpty then none
  else
    (readExponent afterFraction).map fun e =>
      nearest (digitsValue (digitsValue 0 digits) fraction) (e - fraction.length)

/-- The words for values that have no digits. -/
def readWord (cs : List Char) : Option Float :=
  let word := String.ofList (cs.map Char.toLower)
  if word = "inf" ∨ word = "infinity" then some (Float.ofBits 0x7FF0000000000000)
  else if word = "nan" then some (Float.ofBits 0x7FF8000000000000)
  else none

/-- Reads a number written with plain digits alone: a sign, and a numeral or a word. -/
def readPlain? (cs : List Char) : Option Float :=
  let (negative, body) := takeSign cs
  (readNumeral body <|> readWord body).map fun x => if negative then -x else x

/-- Reads a whole number written with plain digits alone: a sign and the digits. -/
def readPlainWhole? (cs : List Char) : Option Int :=
  let (negative, ds) := takeSign cs
  if ds.isEmpty || !ds.all Char.isDigit then none
  else
    let n : Int := digitsValue 0 ds
    some (if negative then -n else n)

/-- Reads a number from the text of a user. -/
def read? (s : String) : Option Float :=
  (dropUnderscores ' ' (plainNumber s)).bind readPlain?

/-- Reads a whole number from the text of a user. -/
def readWhole? (s : String) : Option Int :=
  (dropUnderscores ' ' (plainNumber s)).bind readPlainWhole?

/-! ### Whole numbers as values -/

/-- The value nearest to a whole number, unless that is beyond the range. -/
def ofWhole? (n : Int) : Option Float :=
  let x := Float.ofInt n
  if isInfinite x then none else some x

/-- The value nearest to a whole number. -/
def ofWhole (n : Int) : Float :=
  Float.ofInt n

end Formulary.Number
